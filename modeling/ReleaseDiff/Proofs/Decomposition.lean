import Mathlib.Algebra.BigOperators.Group.Finset.Basic
import Mathlib.Algebra.Order.Group.Multiset
import ReleaseDiff.Proofs.Entities

set_option autoImplicit false

/-!
# A report is the sum of its names

Every name of every compared kind contributes its own records, and a report holds those
contributions and nothing else. What a name contributes depends on the entities of that name alone.

## Main definitions

* `ReleaseDiff.comparedKinds` — the enabled kinds that both releases could build.
* `ReleaseDiff.Tree.names` — the names of a kind in two releases.
* `ReleaseDiff.contribution` — the records of one name of a kind.
* `ReleaseDiff.Tree.AgreeExcept` — two trees differ at most in one entity.

## Main results

* `ReleaseDiff.records_classify_eq_sum` — the records of a report, as a multiset.
* `ReleaseDiff.classify_decomposition` — the same with what a single name contributes, and what a
  change of one entity leaves alone.
-/

namespace ReleaseDiff

open scoped BigOperators

variable {k : Kind} {name : String} {config : Config}

/-! ## Kinds and names -/

namespace Tree

/-- **The names of a kind** that occur in either of two releases. -/
def names (before after : Tree) (k : Kind) : Finset String :=
  (before k).entities.keys.toFinset ∪ (after k).entities.keys.toFinset

/-- A name is one of a kind just when one of the releases has an entity of it. -/
theorem mem_names_iff {before after : Tree} :
    name ∈ names before after k ↔
      before.entity? k name ≠ none ∨ after.entity? k name ≠ none := by
  have hkeys : ∀ c : Catalog (Entity k), name ∈ c.keys ↔ c.get? name ≠ none := by
    intro c
    rw [Catalog.mem_keys_iff, Catalog.contains, Option.isSome_iff_ne_none]
  rw [names, Finset.mem_union, List.mem_toFinset, List.mem_toFinset, hkeys, hkeys]
  rfl

end Tree

/-- **The enabled kinds that both releases could build.** -/
def comparedKinds (config : Config) (before after : Tree) : Finset Kind :=
  config.enabledKinds.toFinset.filter fun k => (before k).isOk && (after k).isOk

/-- A kind is compared just when it is enabled and both releases could build it. -/
theorem mem_comparedKinds_iff {before after : Tree} :
    k ∈ comparedKinds config before after ↔
      k ∈ config.enabledKinds ∧ (before k).isOk = true ∧ (after k).isOk = true := by
  rw [comparedKinds, Finset.mem_filter, List.mem_toFinset, Bool.and_eq_true]

/-- **What one name of a kind contributes**: the records of its two entities, as a multiset. -/
def contribution (before after : Tree) (k : Kind) (name : String) : Multiset Record :=
  Entity.records name (before.entity? k name) (after.entity? k name)

/-! ## Sums of records -/

/-- What a list of items gives, one after the other, is the sum of what each of them gives. -/
theorem coe_flatMap_eq_sum {α β : Type} (items : List α) (f : α → List β) :
    ((items.flatMap f : List β) : Multiset β) = (items.map fun x => (f x : Multiset β)).sum := by
  induction items with
  | nil => rfl
  | cons x rest ih =>
    rw [List.flatMap_cons, ← Multiset.coe_add, ih, List.map_cons, List.sum_cons]

/-- The records of a kind that both releases could build are those of its names. -/
theorem coe_records_compareKind {before after : Tree} (hb : (before k).isOk = true)
    (ha : (after k).isOk = true) :
    ((compareKind k before after).records : Multiset Record) =
      ∑ name ∈ Tree.names before after k, contribution before after k name := by
  cases hold : before k with
  | error m => rw [hold] at hb; cases hb
  | ok old =>
    cases hnew : after k with
    | error m => rw [hnew] at ha; cases ha
    | ok new =>
      have hnames : Tree.names before after k = (Catalog.keysOfBoth old new).toFinset := by
        ext name
        rw [Tree.names, hold, hnew, Finset.mem_union, List.mem_toFinset, List.mem_toFinset,
          List.mem_toFinset, Catalog.mem_keysOfBoth_iff, Catalog.mem_keys_iff, Catalog.mem_keys_iff]
        rfl
      rw [compareKind_of_ok hold hnew, KindOutcome.records,
        Multiset.coe_eq_coe.2 (entityRecords_perm old new), Catalog.pointwise, coe_flatMap_eq_sum,
        hnames, List.sum_toFinset _ (Catalog.nodup_keysOfBoth old new)]
      simp only [contribution, Tree.entity?, hold, hnew, Slot.entities]

/-- A kind that one of the releases could not build has no record. -/
theorem records_compareKind_eq_nil {before after : Tree}
    (h : ¬((before k).isOk = true ∧ (after k).isOk = true)) :
    (compareKind k before after).records = [] := by
  unfold compareKind
  cases hold : before k with
  | error m => rfl
  | ok old =>
    cases hnew : after k with
    | error m => rfl
    | ok new => exact absurd ⟨by rw [hold]; rfl, by rw [hnew]; rfl⟩ h

/-- **The records of a report are those of the names of the compared kinds**, each name of each kind
once.

**Proof sketch.** A report holds the records of the enabled kinds, no kind is enabled twice, and a
kind that is not compared has none. The records of a kind are those of its names. -/
theorem records_classify_eq_sum (config : Config) (before after : Tree) :
    ((classify config before after).records : Multiset Record) =
      ∑ k ∈ comparedKinds config before after, ∑ name ∈ Tree.names before after k,
        contribution before after k name := by
  rw [Multiset.coe_eq_coe.2 (records_classify_perm config before after), coe_flatMap_eq_sum,
    ← List.sum_toFinset _ config.nodup_enabledKinds]
  calc ∑ k ∈ config.enabledKinds.toFinset, ((compareKind k before after).records : Multiset Record)
      = ∑ k ∈ comparedKinds config before after,
          ((compareKind k before after).records : Multiset Record) := by
        refine (Finset.sum_subset (Finset.filter_subset _ _) fun k hk hnot => ?_).symm
        have hslots : ¬((before k).isOk = true ∧ (after k).isOk = true) := fun h =>
          hnot (mem_comparedKinds_iff.2 ⟨List.mem_toFinset.1 hk, h⟩)
        rw [records_compareKind_eq_nil hslots]
        rfl
    _ = _ := by
        refine Finset.sum_congr rfl fun k hk => ?_
        obtain ⟨-, hb, ha⟩ := mem_comparedKinds_iff.1 hk
        exact coe_records_compareKind hb ha

/-! ## Changing one entity -/

/-- **Two trees differ at most in one entity**: they could build the same kinds, and under any other
kind or name they hold the same entity. -/
def Tree.AgreeExcept (k : Kind) (name : String) (t u : Tree) : Prop :=
  ∀ j, (t j).isOk = (u j).isOk ∧ ∀ m, ¬(j = k ∧ m = name) → t.entity? j m = u.entity? j m

namespace Tree.AgreeExcept

/-- A tree differs from itself nowhere. -/
theorem refl (t : Tree) : AgreeExcept k name t t := fun _ => ⟨rfl, fun _ _ => rfl⟩

/-- Replacing the entities of one kind by entities that agree under every other name differs at most
in that entity. -/
theorem update {t : Tree} {c d : Catalog (Entity k)} (ht : t k = .ok c)
    (hcd : ∀ m, m ≠ name → c.get? m = d.get? m) :
    AgreeExcept k name t (Function.update t k (.ok d)) := by
  intro j
  by_cases hj : j = k
  · subst hj
    rw [Function.update_self]
    refine ⟨by rw [ht]; rfl, fun m hm => ?_⟩
    rw [entity?, entity?, Function.update_self, ht]
    exact hcd m fun h => hm ⟨rfl, h⟩
  · rw [Function.update_of_ne hj]
    refine ⟨rfl, fun m _ => ?_⟩
    rw [entity?, entity?, Function.update_of_ne hj]

/-- Replacing an entity by one of the same name, or adding one, changes no other entity. -/
theorem insert {t : Tree} {c : Catalog (Entity k)} (ht : t k = .ok c) (e : Entity k) :
    AgreeExcept k e.name t (Function.update t k (.ok (c.insert e))) := by
  refine update ht fun m hm => ?_
  rw [Catalog.get?_insert, if_neg fun h : key e = m => hm h.symm]

/-- Removing an entity changes no other entity. -/
theorem erase {t : Tree} {c : Catalog (Entity k)} (ht : t k = .ok c) (name : String) :
    AgreeExcept k name t (Function.update t k (.ok (c.erase name))) := by
  refine update ht fun m hm => ?_
  rw [Catalog.get?_erase, if_neg hm]

variable {before before' after after' : Tree}

/-- The same kinds are compared. -/
theorem comparedKinds_eq (hb : AgreeExcept k name before before')
    (ha : AgreeExcept k name after after') :
    comparedKinds config before after = comparedKinds config before' after' := by
  ext j
  rw [mem_comparedKinds_iff, mem_comparedKinds_iff, (hb j).1, (ha j).1]

/-- Any other name contributes the same. -/
theorem contribution_eq (hb : AgreeExcept k name before before')
    (ha : AgreeExcept k name after after') {j : Kind} {m : String} (hne : ¬(j = k ∧ m = name)) :
    contribution before after j m = contribution before' after' j m := by
  rw [contribution, contribution, (hb j).2 m hne, (ha j).2 m hne]

/-- Any other kind has the same names. -/
theorem names_eq (hb : AgreeExcept k name before before') (ha : AgreeExcept k name after after')
    {j : Kind} (hj : j ≠ k) : names before after j = names before' after' j := by
  ext m
  have hne : ¬(j = k ∧ m = name) := fun h => hj h.1
  rw [mem_names_iff, mem_names_iff, (hb j).2 m hne, (ha j).2 m hne]

end Tree.AgreeExcept

/-- Any other kinds contribute the same. -/
theorem Tree.AgreeExcept.sum_contribution_eq {before before' after after' : Tree}
    (hb : AgreeExcept k name before before') (ha : AgreeExcept k name after after')
    {kinds : Finset Kind} (hk : k ∉ kinds) :
    ∑ j ∈ kinds, ∑ n ∈ names before after j, contribution before after j n =
      ∑ j ∈ kinds, ∑ n ∈ names before' after' j, contribution before' after' j n := by
  refine Finset.sum_congr rfl fun j hj => ?_
  have hjk : j ≠ k := fun h => hk (h ▸ hj)
  rw [hb.names_eq ha hjk]
  exact Finset.sum_congr rfl fun n _ => hb.contribution_eq ha fun h => hjk h.1

/-- A name that neither release has contributes nothing, so a sum may run over further names. -/
theorem sum_contribution_of_subset {before after : Tree} {names : Finset String}
    (h : Tree.names before after k ⊆ names) :
    ∑ name ∈ Tree.names before after k, contribution before after k name =
      ∑ name ∈ names, contribution before after k name := by
  refine Finset.sum_subset h fun name _ hnot => ?_
  rw [Tree.mem_names_iff, not_or, not_not, not_not] at hnot
  rw [contribution, hnot.1, hnot.2]
  rfl

/-- **A change of one entity leaves every other contribution alone**: beside what its name
contributes, the reports before and after the change hold the same records.

**Proof sketch.** The sum over the compared kinds is split at the kind of the entity, and the sum
over the names of that kind, taken over the names in all four trees, at its name. What remains are
the contributions of other kinds and of other names. -/
theorem exists_others {before before' after after' : Tree}
    (hb : Tree.AgreeExcept k name before before') (ha : Tree.AgreeExcept k name after after')
    (hk : k ∈ comparedKinds config before after) :
    ∃ others : Multiset Record,
      ((classify config before after).records : Multiset Record) =
        others + contribution before after k name ∧
      ((classify config before' after').records : Multiset Record) =
        others + contribution before' after' k name := by
  -- The name itself is among the names, also where a change adds or removes it.
  set names := insert name (Tree.names before after k ∪ Tree.names before' after' k) with hnames
  have hname : name ∈ names := Finset.mem_insert_self _ _
  have hsplit : ∀ t u : Tree, Tree.names t u k ⊆ names →
      ∑ n ∈ Tree.names t u k, contribution t u k n =
        ∑ n ∈ names.erase name, contribution t u k n + contribution t u k name := by
    intro t u hsub
    rw [sum_contribution_of_subset hsub, Finset.sum_erase_add _ _ hname]
  refine ⟨∑ j ∈ (comparedKinds config before after).erase k,
      ∑ n ∈ Tree.names before after j, contribution before after j n
    + ∑ n ∈ names.erase name, contribution before after k n, ?_, ?_⟩
  · have hsub : Tree.names before after k ⊆ names :=
      Finset.subset_union_left.trans (Finset.subset_insert _ _)
    rw [records_classify_eq_sum, ← Finset.sum_erase_add _ _ hk, hsplit _ _ hsub, add_assoc]
  · have hsub : Tree.names before' after' k ⊆ names :=
      Finset.subset_union_right.trans (Finset.subset_insert _ _)
    have hkinds := hb.sum_contribution_eq ha
      (Finset.notMem_erase k (comparedKinds config before after))
    have hothers : ∑ n ∈ names.erase name, contribution before after k n =
        ∑ n ∈ names.erase name, contribution before' after' k n :=
      Finset.sum_congr rfl fun n hn =>
        hb.contribution_eq ha fun h => Finset.ne_of_mem_erase hn h.2
    rw [hkinds, hothers, records_classify_eq_sum, ← hb.comparedKinds_eq ha,
      ← Finset.sum_erase_add _ _ hk, hsplit _ _ hsub, add_assoc]

/-- An entity that only one release has contributes one record, at the path of its name. -/
theorem Entity.records_of_one_side (e : Entity k) :
    (∃ r, Entity.records name (some e) none = [r] ∧ r.path = name) ∧
      ∃ r, Entity.records name none (some e) = [r] ∧ r.path = name := by
  have hpath : (Path.root name).text = name := String.intercalate_singleton
  exact ⟨⟨_, rfl, hpath⟩, ⟨_, rfl, hpath⟩⟩

/-- **A report decomposes name by name.** Its records are, each counted as often as it occurs, those
that comparing every name of every compared kind gives, and they have the kind of the name. A name
that only one release has gives one record, at the path of the name. Where two comparisons differ in
the entities of one name at most, so do their records, beside which both reports hold the same. -/
theorem classify_decomposition (config : Config) (before after : Tree) :
    ((classify config before after).records : Multiset Record) =
      ∑ k ∈ comparedKinds config before after, ∑ name ∈ Tree.names before after k,
        (Entity.records name (before.entity? k name) (after.entity? k name) : Multiset Record) ∧
    (∀ k name, ∀ r ∈ Entity.records name (before.entity? k name) (after.entity? k name),
      r.kind = k) ∧
    (∀ k name e, before.entity? k name = some e → after.entity? k name = none →
      ∃ r, Entity.records name (before.entity? k name) (after.entity? k name) = [r] ∧
        r.path = name) ∧
    (∀ k name e, before.entity? k name = none → after.entity? k name = some e →
      ∃ r, Entity.records name (before.entity? k name) (after.entity? k name) = [r] ∧
        r.path = name) ∧
    ∀ k name before' after', Tree.AgreeExcept k name before before' →
      Tree.AgreeExcept k name after after' →
        (k ∈ comparedKinds config before after → ∃ others : Multiset Record,
          ((classify config before after).records : Multiset Record) =
            others + contribution before after k name ∧
          ((classify config before' after').records : Multiset Record) =
            others + contribution before' after' k name) ∧
        (k ∉ comparedKinds config before after →
          ((classify config before after).records : Multiset Record) =
            (classify config before' after').records) := by
  refine ⟨records_classify_eq_sum config before after, ?_, ?_, ?_, ?_⟩
  · intro k name r hr
    exact Entity.kind_of_mem_records hr
  · intro k name e hb ha
    rw [hb, ha]
    exact (Entity.records_of_one_side e).1
  · intro k name e hb ha
    rw [hb, ha]
    exact (Entity.records_of_one_side e).2
  · intro k name before' after' hb ha
    refine ⟨exists_others hb ha, fun hk => ?_⟩
    rw [records_classify_eq_sum, records_classify_eq_sum, ← hb.comparedKinds_eq ha]
    exact hb.sum_contribution_eq ha hk

/-- A page that is new in the later release is one record. Once the earlier release has the page
too, that record is gone, and nothing else in the report moves. -/
theorem classify_decomposition_new_page :
    let page : Entity .page := ⟨"Checkout", ∅, ⟨∅⟩⟩
    let release : Tree :=
      Function.update Tree.empty .page (.ok ((∅ : Catalog (Entity .page)).insert page))
    (contribution Tree.empty release .page "Checkout").card = 1 ∧
      (contribution release release .page "Checkout").card = 0 ∧
      ∃ others : Multiset Record,
        ((classify {} Tree.empty release).records : Multiset Record) =
          others + contribution Tree.empty release .page "Checkout" ∧
        ((classify {} release release).records : Multiset Record) =
          others + contribution release release .page "Checkout" := by
  intro page release
  refine ⟨rfl, rfl, ?_⟩
  have hbefore : Tree.AgreeExcept .page "Checkout" Tree.empty release :=
    Tree.AgreeExcept.insert rfl page
  have hcompared : Kind.page ∈ comparedKinds {} Tree.empty release := by decide
  exact ((classify_decomposition {} Tree.empty release).2.2.2.2 .page "Checkout" release release
    hbefore (Tree.AgreeExcept.refl release)).1 hcompared

end ReleaseDiff
