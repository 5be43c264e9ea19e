import ReleaseDiff.Proofs.Building
import ReleaseDiff.Proofs.DeclarationOrder

set_option autoImplicit false

/-!
# A matching as a partition

Matching two catalogs splits both of them. Every item of the earlier one is removed or the first of
a pair, every item of the later one is added or the second of a pair, and no key is in two of the
three parts. An item is looked up under its own key, so this rests on how catalogs are filled:
whichever way that is, an item is filed under its own key and under no other.

## Main definitions

* `ReleaseDiff.Matching.flip` — a matching seen from the later release.
* `ReleaseDiff.Matching.Partitions` — a matching accounts for every item of two catalogs once.
* `ReleaseDiff.Catalog.Gains` — an item was filed under its own key.

## Main results

* `ReleaseDiff.missingFrom_append_sharedPairs_perm` — an item is missing from another list or makes
  a pair.
* `ReleaseDiff.Catalog.sharedPairs_flip` — the pairs, seen from the later release.
* `ReleaseDiff.Catalog.partitions_matchWith` — a matching is a partition of two catalogs.
* `ReleaseDiff.Catalog.gains_of_insertNew?`, `ReleaseDiff.History.gains_of_file?` — filing one item.
* `ReleaseDiff.matching_is_partition` — the parts of a matching, its flip, and how catalogs are
  filled.
-/

namespace ReleaseDiff

/-! ## Two lists -/

section Lists

variable {α : Type} [Keyed α]

/-- The first items of the pairs are those whose key the other list has. -/
theorem map_fst_sharedPairs (items others : List α) :
    (sharedPairs items others).map Prod.fst =
      items.filter fun x => (lookup others (key x)).isSome := by
  induction items with
  | nil => rfl
  | cons x rest ih =>
    rw [sharedPairs_cons, List.map_append, ih, List.filter_cons]
    cases lookup others (key x) with
    | none => rfl
    | some y => rfl

/-- **An item is missing from another list or makes a pair**, and never both. -/
theorem missingFrom_append_sharedPairs_perm (items others : List α) :
    (missingFrom items others ++ (sharedPairs items others).map Prod.fst).Perm items := by
  have hsome : ∀ x : α, (lookup others (key x)).isSome = !(lookup others (key x)).isNone := by
    intro x
    cases lookup others (key x) <;> rfl
  rw [map_fst_sharedPairs, missingFrom]
  simp only [hsome]
  exact List.filter_append_perm _ items

/-- The pairs of a list in key order are in key order. -/
theorem pairwise_sharedPairs {items : List α} (h : Increasing items) (others : List α) :
    (sharedPairs items others).Pairwise fun p q => key p.1 < key q.1 := by
  have hfirst : ((sharedPairs items others).map Prod.fst).Pairwise fun x y => key x < key y := by
    rw [map_fst_sharedPairs]
    exact h.sublist List.filter_sublist
  rwa [List.pairwise_map] at hfirst

end Lists

/-! ## Matchings -/

namespace Matching

variable {α : Type}

/-- **A matching seen from the later release**: what was removed is added, and every pair is turned
round. -/
def flip (m : Matching α) : Matching α where
  removed := m.added
  added := m.removed
  pairs := m.pairs.map Prod.swap

variable [Keyed α]

/-- **A matching accounts for every item of two catalogs once**, in three parts in key order. -/
structure Partitions (m : Matching α) (before after : Catalog α) : Prop where
  /-- The removed items are in strict key order. -/
  removed_increasing : Increasing m.removed
  /-- So are the added ones. -/
  added_increasing : Increasing m.added
  /-- So are the pairs. -/
  pairs_increasing : m.pairs.Pairwise fun p q => key p.1 < key q.1
  /-- An item of the earlier catalog is removed or the first of a pair. -/
  earlier : (m.removed ++ m.pairs.map Prod.fst).Perm before.items
  /-- An item of the later catalog is added or the second of a pair. -/
  later : (m.added ++ m.pairs.map Prod.snd).Perm after.items
  /-- The items of a pair have one key. -/
  paired : ∀ p ∈ m.pairs, key p.1 = key p.2
  /-- No key is in two parts, and none is in one part twice. -/
  apart : (m.removed.map key ++ m.added.map key ++ m.pairs.map fun p => key p.1).Nodup

end Matching

namespace Catalog

variable {α : Type} [Keyed α]

/-- The items of a pair have one key. -/
theorem key_eq_of_mem_sharedPairs {before after : Catalog α} {p : α × α}
    (hp : p ∈ sharedPairs before.items after.items) : key p.1 = key p.2 :=
  (get?_eq_some_iff.1 (mem_sharedPairs_iff.1 hp).2).2.symm

/-- A pair is a pair of the later release, turned round. -/
theorem mem_sharedPairs_swap_iff {before after : Catalog α} {p : α × α} :
    p.swap ∈ sharedPairs before.items after.items ↔ p ∈ sharedPairs after.items before.items := by
  have hturn : ∀ (c d : Catalog α) (q : α × α), q ∈ sharedPairs c.items d.items →
      q.swap ∈ sharedPairs d.items c.items := by
    intro c d q hq
    have hkey := key_eq_of_mem_sharedPairs hq
    obtain ⟨hc, hd⟩ := mem_sharedPairs_iff.1 hq
    exact mem_sharedPairs_iff.2 ⟨hkey ▸ hd, hkey ▸ hc⟩
  exact ⟨hturn before after p.swap, hturn after before p⟩

/-- **The pairs, seen from the later release**, are the same pairs turned round, in the same
order.

**Proof sketch.** A pair stands for a key that both catalogs have, so both lists hold the same
pairs. Both are in strict key order, which leaves one list. -/
theorem sharedPairs_flip (before after : Catalog α) :
    sharedPairs after.items before.items =
      (sharedPairs before.items after.items).map Prod.swap := by
  let _ : Keyed (α × α) := ⟨fun p => key p.1⟩
  refine eq_of_mem_iff (pairwise_sharedPairs after.increasing _) ?_ fun p => ?_
  · refine List.pairwise_map.2 ((pairwise_sharedPairs before.increasing _).imp_of_mem ?_)
    intro p q hp hq hpq
    rwa [key_eq_of_mem_sharedPairs hp, key_eq_of_mem_sharedPairs hq] at hpq
  · rw [← mem_sharedPairs_swap_iff, List.mem_map]
    exact ⟨fun hp => ⟨p.swap, hp, p.swap_swap⟩, fun ⟨q, hq, hqp⟩ => hqp ▸ q.swap_swap.symm ▸ hq⟩

/-- **A matching is a partition of two catalogs.** -/
theorem partitions_matchWith (before after : Catalog α) :
    (before.matchWith after).Partitions before after where
  removed_increasing := before.increasing.sublist List.filter_sublist
  added_increasing := after.increasing.sublist List.filter_sublist
  pairs_increasing := pairwise_sharedPairs before.increasing after.items
  earlier := missingFrom_append_sharedPairs_perm before.items after.items
  later := by
    have hturned : (sharedPairs before.items after.items).map Prod.snd =
        (sharedPairs after.items before.items).map Prod.fst := by
      rw [sharedPairs_flip before after, List.map_map]
      rfl
    rw [matchWith, matchItems, hturned]
    exact missingFrom_append_sharedPairs_perm after.items before.items
  paired _ hp := key_eq_of_mem_sharedPairs hp
  apart := nodup_matchedKeys before after

/-- Nothing is missing from a catalog that has all keys of the other one. -/
theorem missingFrom_eq_nil_iff {c d : Catalog α} :
    missingFrom c.items d.items = [] ↔ ∀ k ∈ c.keys, k ∈ d.keys := by
  simp only [List.eq_nil_iff_forall_not_mem, mem_missingFrom_iff, mem_keys_iff]
  constructor
  · intro h k hk
    obtain ⟨x, hx⟩ := Option.isSome_iff_exists.1 hk
    obtain rfl := (get?_eq_some_iff.1 hx).2
    by_contra hfree
    exact h x ⟨hx, contains_eq_false_iff.1 (Bool.not_eq_true _ ▸ hfree)⟩
  · rintro h x ⟨hc, hd⟩
    have htaken : d.contains (key x) = true := h (key x) (by rw [contains, hc]; rfl)
    rw [contains_eq_false_iff.2 hd] at htaken
    cases htaken

/-- **Nothing was removed or added just when both catalogs have the same keys.** -/
theorem isAligned_matchWith_iff {before after : Catalog α} :
    (before.matchWith after).isAligned = true ↔ ∀ k, k ∈ before.keys ↔ k ∈ after.keys := by
  rw [Matching.isAligned, Bool.and_eq_true, List.isEmpty_iff, List.isEmpty_iff, matchWith,
    matchItems, missingFrom_eq_nil_iff, missingFrom_eq_nil_iff]
  exact ⟨fun h k => ⟨h.1 k, h.2 k⟩, fun h => ⟨fun k => (h k).1, fun k => (h k).2⟩⟩

/-- **Matching the other way round** turns the matching round. -/
theorem matchWith_flip (before after : Catalog α) :
    after.matchWith before = (before.matchWith after).flip := by
  rw [Matching.flip, matchWith, matchItems, sharedPairs_flip before after]
  rfl

/-! ## Filing under the own key -/

/-- **An item was filed under its own key**: it is found under its key, and under any other key what
was found before. -/
def Gains (c : Catalog α) (x : α) (d : Catalog α) : Prop :=
  ∀ i, d.get? i = if key x = i then some x else c.get? i

/-- A new item is filed under its own key. -/
theorem gains_of_insertNew? {c d : Catalog α} {x : α} (h : c.insertNew? x = .ok d) :
    c.Gains x d := by
  rw [(insertNew?_eq_ok_iff.1 h).2.2]
  exact get?_insert c x

/-- **What is filed under a key is the first declared item of that key**, whether a key may recur or
not. -/
theorem get?_of_filed {items : List α} {c : Catalog α}
    (h : ofDistinct? items = .ok c ∨ ofFirsts? items = .ok c) (i : String) :
    c.get? i = lookup items i := by
  rcases h with h | h
  · obtain ⟨-, hnodup, rfl⟩ := ofDistinct?_eq_ok_iff.1 h
    exact get?_ofList_eq_lookup hnodup i
  · exact get?_of_ofFirsts? h i

end Catalog

/-- An entity is filed under its own name. -/
theorem History.gains_of_file? {k : Kind} {c d : Catalog (Entity k)} {e : Entity k}
    (h : History.file? c e = .ok d) : c.Gains e d := by
  rw [(file?_eq_ok_iff.1 h).2.2]
  exact c.get?_insert e

/-- **A matching is a partition.** Its three parts are in strict key order, hold every item of the
two catalogs exactly once, pair items of one key and share no key. Nothing was removed or added just
when the catalogs have the same keys, and matching the other way round exchanges removed and added
items and turns every pair round. This rests on every item being filed under its own key and under
no other. Whichever way a catalog is filled keeps it so: one more item or entity changes what is
found under its own key alone, and a catalog made from a list, whether keys may recur in it or not,
holds under a key the first item of that key. -/
theorem matching_is_partition {α : Type} [Keyed α] :
    (∀ before after : Catalog α,
      (before.matchWith after).Partitions before after ∧
        ((before.matchWith after).isAligned = true ↔ ∀ k, k ∈ before.keys ↔ k ∈ after.keys) ∧
        after.matchWith before = (before.matchWith after).flip) ∧
    (∀ (c : Catalog α) (k : String) (x : α), c.get? k = some x ↔ x ∈ c.items ∧ key x = k) ∧
    (∀ (c d : Catalog α) (x : α), c.insertNew? x = .ok d → c.Gains x d) ∧
    (∀ (k : Kind) (c d : Catalog (Entity k)) (e : Entity k),
      History.file? c e = .ok d → c.Gains e d) ∧
    ∀ (items : List α) (c : Catalog α),
      Catalog.ofDistinct? items = .ok c ∨ Catalog.ofFirsts? items = .ok c →
        ∀ i, c.get? i = lookup items i :=
  ⟨fun before after => ⟨before.partitions_matchWith after, Catalog.isAligned_matchWith_iff,
      before.matchWith_flip after⟩,
    fun _ _ _ => Catalog.get?_eq_some_iff, fun _ _ _ => Catalog.gains_of_insertNew?,
    fun _ _ _ _ => History.gains_of_file?, fun _ _ => Catalog.get?_of_filed⟩

/-- An argument is dropped and another one declared, a third one stays; a page is filed. -/
theorem matching_is_partition_arguments :
    let items : List Child := [⟨"user", ∅⟩, ⟨"password", ∅⟩]
    let page : Entity .page := ⟨"Home", ∅, ⟨∅⟩⟩
    ∃ before after more : Catalog Child, ∃ pages : Catalog (Entity .page),
      Catalog.ofDistinct? items = .ok before ∧ Catalog.ofFirsts? [⟨"user", ∅⟩] = .ok after ∧
        after.insertNew? ⟨"url", ∅⟩ = .ok more ∧ History.file? ∅ page = .ok pages ∧
      (before.matchWith more).Partitions before more ∧
      ((before.matchWith more).removed.map key, (before.matchWith more).added.map key,
        (before.matchWith more).pairs.map fun p => (key p.1, key p.2)) =
          (["password"], ["url"], [("user", "user")]) ∧
      ¬(∀ k, k ∈ before.keys ↔ k ∈ more.keys) ∧
      (∀ i, before.get? i = lookup items i) ∧ after.Gains ⟨"url", ∅⟩ more ∧
      (∅ : Catalog (Entity .page)).Gains page pages := by
  intro items page
  obtain ⟨hmatch, -, hnew, hentity, hfiled⟩ := matching_is_partition (α := Child)
  refine ⟨_, _, _, _, rfl, rfl, rfl, rfl, (hmatch _ _).1, by decide, ?_, ?_, ?_, ?_⟩
  · rw [← (hmatch _ _).2.1]
    decide
  · exact hfiled items _ (.inl rfl)
  · exact hnew _ _ _ rfl
  · exact hentity .page ∅ _ page rfl

end ReleaseDiff
