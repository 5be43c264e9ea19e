import Mathlib.Data.List.Forall2
import ReleaseDiff.FieldForest
import ReleaseDiff.Proofs.Matching

set_option autoImplicit false

/-!
# Levels of a forest of fields

Every level of an ordered forest is a catalog of fields. A level is reached by the chain of keys
above it, and two forests are compared exactly on the levels that one chain reaches in both.

## Main definitions

* `ReleaseDiff.FieldForest.catalog` — the fields of an ordered level as a catalog.
* `ReleaseDiff.FieldForest.levelAt?` — the level below a chain of keys, if the chain is there.
* `ReleaseDiff.FieldForest.SomeLevel` — some chain reaches two levels that stand in a relation.

## Main results

* `ReleaseDiff.FieldForest.level_induction`, `ReleaseDiff.FieldForest.Ordered.induction` — induction
  over forests, and over ordered ones, from the levels below the fields to the level itself.
* `ReleaseDiff.FieldForest.someLevel_iff` — what holds at some level holds at the top or below some
  field that both forests have.
-/

namespace ReleaseDiff

namespace FieldForest

/-! ## Levels as catalogs -/

/-- A forest is the level of its own fields. -/
@[simp] theorem ofNodes_nodes (f : FieldForest) : ofNodes f.nodes = f := by
  induction f with
  | nil => rfl
  | cons k a children rest _ ih => simp [nodes, ofNodes, ih]

/-- A forest is ordered just when its own keys increase and every level below it is ordered. -/
theorem ordered_iff {f : FieldForest} :
    f.Ordered ↔ Increasing f.nodes ∧ ∀ n ∈ f.nodes, n.children.Ordered := by
  refine ⟨fun h => ?_, fun ⟨h, hc⟩ => ofNodes_nodes f ▸ ordered_ofNodes h hc⟩
  induction f with
  | nil => exact ⟨List.Pairwise.nil, fun n hn => absurd hn List.not_mem_nil⟩
  | cons k a children rest _ ih =>
    obtain ⟨hk, hchildren, hrest⟩ := h
    obtain ⟨hincreasing, hbelow⟩ := ih hrest
    refine ⟨List.pairwise_cons.2 ⟨hk, hincreasing⟩, fun n hn => ?_⟩
    rcases List.mem_cons.1 hn with rfl | hn
    · exact hchildren
    · exact hbelow n hn

/-- **The fields of an ordered level as a catalog.** -/
def catalog (f : FieldForest) (h : f.Ordered) : Catalog NestedField :=
  ⟨f.nodes, (ordered_iff.1 h).1⟩

/-- What the catalog of a level finds is what the level finds. -/
@[simp] theorem get?_catalog (f : FieldForest) (h : f.Ordered) (k : String) :
    (f.catalog h).get? k = f.find? k := rfl

/-- A field that is found is a field of the level, and has the key looked for. -/
theorem mem_of_find? {f : FieldForest} {k : String} {n : NestedField} (h : f.find? k = some n) :
    n ∈ f.nodes ∧ n.key = k :=
  mem_of_lookup h

/-- The level below a field of an ordered forest is ordered. -/
theorem Ordered.below {f : FieldForest} (h : f.Ordered) {k : String} {n : NestedField}
    (hn : f.find? k = some n) : n.children.Ordered :=
  (ordered_iff.1 h).2 n (mem_of_find? hn).1

/-- **Induction over forests, level by level**: what carries over from the levels below the fields
of a level to the level itself holds of every forest.

**Proof sketch.** Structural induction, for a forest together with the levels below its fields: the
first field adds one such level, the remaining fields have theirs by hypothesis. -/
theorem level_induction {motive : FieldForest → Prop}
    (step : ∀ f, (∀ n ∈ f.nodes, motive n.children) → motive f) (f : FieldForest) : motive f := by
  have hall : motive f ∧ ∀ n ∈ f.nodes, motive n.children := by
    induction f with
    | nil =>
      have hbelow : ∀ n ∈ nodes nil, motive n.children := fun n hn => absurd hn List.not_mem_nil
      exact ⟨step nil hbelow, hbelow⟩
    | cons k a children rest ihc ihr =>
      have hbelow : ∀ n ∈ (cons k a children rest).nodes, motive n.children :=
        List.forall_mem_cons.2 ⟨ihc.1, ihr.2⟩
      exact ⟨step _ hbelow, hbelow⟩
  exact hall.1

/-- **Induction over ordered forests**: what carries over from the levels below the fields of a
level to the level itself holds of every ordered forest. -/
@[elab_as_elim]
theorem Ordered.induction {motive : (f : FieldForest) → f.Ordered → Prop}
    (step : ∀ f (h : f.Ordered),
      (∀ k n (hn : f.find? k = some n), motive n.children (h.below hn)) → motive f h)
    {f : FieldForest} (h : f.Ordered) : motive f h := by
  induction f using level_induction with
  | step f ih => exact step f h fun k n hn => ih n (mem_of_find? hn).1 (h.below hn)

/-! ## Chains of keys -/

/-- **The level below a chain of keys**, if every key of the chain is there. -/
def levelAt? (f : FieldForest) : List String → Option FieldForest
  | [] => some f
  | k :: chain =>
    match f.find? k with
    | some n => n.children.levelAt? chain
    | none => none

/-- Behind the first key of a chain, the rest of the chain is followed below that field. -/
theorem levelAt?_cons_eq_some_iff {f g : FieldForest} {k : String} {chain : List String} :
    f.levelAt? (k :: chain) = some g ↔
      ∃ n, f.find? k = some n ∧ n.children.levelAt? chain = some g := by
  rw [levelAt?]
  cases f.find? k <;> simp

/-- Following a chain and then another one is following both as one chain. -/
theorem levelAt?_append (f : FieldForest) (chain chain' : List String) :
    f.levelAt? (chain ++ chain') = (f.levelAt? chain).bind fun g => g.levelAt? chain' := by
  induction chain generalizing f with
  | nil => rfl
  | cons k chain ih =>
    rw [List.cons_append, levelAt?, levelAt?]
    cases f.find? k with
    | none => rfl
    | some n => exact ih n.children

/-- **Some chain of keys reaches two levels that stand in a relation.** -/
def SomeLevel (P : FieldForest → FieldForest → Prop) (f g : FieldForest) : Prop :=
  ∃ chain F G, f.levelAt? chain = some F ∧ g.levelAt? chain = some G ∧ P F G

/-- **What holds at some level holds at the top or below some field that both forests have.** -/
theorem someLevel_iff {P : FieldForest → FieldForest → Prop} {f g : FieldForest} :
    SomeLevel P f g ↔ P f g ∨
      ∃ k x y, f.find? k = some x ∧ g.find? k = some y ∧ SomeLevel P x.children y.children := by
  constructor
  · rintro ⟨chain, F, G, hF, hG, hP⟩
    cases chain with
    | nil =>
      cases hF
      cases hG
      exact Or.inl hP
    | cons k chain =>
      obtain ⟨x, hx, hF⟩ := levelAt?_cons_eq_some_iff.1 hF
      obtain ⟨y, hy, hG⟩ := levelAt?_cons_eq_some_iff.1 hG
      exact Or.inr ⟨k, x, y, hx, hy, chain, F, G, hF, hG, hP⟩
  · rintro (hP | ⟨k, x, y, hx, hy, chain, F, G, hF, hG, hP⟩)
    · exact ⟨[], f, g, rfl, rfl, hP⟩
    · exact ⟨k :: chain, F, G, levelAt?_cons_eq_some_iff.2 ⟨x, hx, hF⟩,
        levelAt?_cons_eq_some_iff.2 ⟨y, hy, hG⟩, hP⟩

/-- **Some key of the first level is not in the second.** -/
def Loses (f g : FieldForest) : Prop :=
  ∃ k n, f.find? k = some n ∧ g.find? k = none

end FieldForest

end ReleaseDiff
