import ReleaseDiff.Proofs.Congruence
import ReleaseDiff.Proofs.Declarations

set_option autoImplicit false

/-!
# The order of declaration

A release is declared entity by entity. Two declarations that differ only in order give equal
releases, at every level: the order of the entities, of the items of each collection, of nested
fields and of the items of arrays. Which defect is reported does depend on the order, and so nothing
is said about the wording of a failure, only about which kinds fail.

## Main definitions

* `ReleaseDiff.Declaration` — what a release is declared by.
* `ReleaseDiff.Tree.declared` — the release of a list of declarations.
* `ReleaseDiff.Declaration.Rearranged` — declarations of the same thing.

## Main results

* `ReleaseDiff.Assembly.entities_run`, `ReleaseDiff.Assembly.isSome_defect?_run` — what a list of
  steps has declared of a kind.
* `ReleaseDiff.History.agree_slot` — a kind is built from reordered entities alike.
* `ReleaseDiff.classify_rearranged` — rearranged declarations build together, and what they build is
  interchangeable in every comparison.
-/

namespace ReleaseDiff

variable {k : Kind}

/-! ## What a list of steps declares of a kind -/

namespace TreeStep

/-- The entity that a step adds to a kind. -/
def entity? (k : Kind) : TreeStep → Option (Entity k)
  | add j e => if h : j = k then some (h ▸ e) else none
  | fail _ => none

@[simp] theorem entity?_add_self (k : Kind) (e : Entity k) : (add k e).entity? k = some e :=
  dif_pos rfl

theorem entity?_add_of_ne {j k : Kind} (h : j ≠ k) (e : Entity j) : (add j e).entity? k = none :=
  dif_neg h

@[simp] theorem entity?_fail (k : Kind) (m : Malformed) : (fail m).entity? k = none := rfl

/-- Whether a step marks a kind as one that cannot be built. -/
def fails (k : Kind) : TreeStep → Bool
  | add _ _ => false
  | fail m => decide (m.kind = k)

/-- **Steps that do the same**, the wording of a failure apart. -/
inductive Alike : TreeStep → TreeStep → Prop where
  /-- Equal entities are added. -/
  | add {k : Kind} {e e' : Entity k} (h : e.Same e') : Alike (add k e) (add k e')
  /-- One kind is marked as one that cannot be built. -/
  | fail {m n : Malformed} (h : m.kind = n.kind) : Alike (fail m) (fail n)

namespace Alike

variable {s t : TreeStep}

theorem entity? (h : Alike s t) (k : Kind) :
    Option.Rel Entity.Same (s.entity? k) (t.entity? k) := by
  cases h with
  | @add j e e' h =>
    by_cases hj : j = k
    · subst hj
      rw [entity?_add_self, entity?_add_self]
      exact Option.Rel.some h
    · rw [entity?_add_of_ne hj, entity?_add_of_ne hj]
      exact Option.Rel.none
  | fail _ => exact Option.Rel.none

theorem fails_eq (h : Alike s t) (k : Kind) : s.fails k = t.fails k := by
  cases h with
  | add _ => rfl
  | fail h => rw [fails, fails, h]

/-- Results that agree are added alike, where the defects are those of the kind. -/
theorem ofResult {x y : Except Malformed (Entity k)} (h : Agree Entity.Same x y) (hx : Blames k x)
    (hy : Blames k y) : Alike (ofResult x) (ofResult y) := by
  cases h with
  | ok h => exact .add h
  | error m n => exact .fail ((hx m rfl).trans (hy n rfl).symm)

end Alike

end TreeStep

namespace Assembly

/-- One step adds its entity to what was declared of a kind. -/
theorem entities_step (a : Assembly) (s : TreeStep) (k : Kind) :
    (a.step s k).entities = (a k).entities ++ (s.entity? k).toList := by
  cases s with
  | add j e =>
    by_cases hj : j = k
    · subst hj
      simp [step, update, History.add]
    · have hk : ¬k = j := fun heq => hj heq.symm
      simp [step, update, TreeStep.entity?_add_of_ne hj, hk]
  | fail m =>
    by_cases hm : k = m.kind
    · subst hm
      simp [step, update, History.fail]
    · simp [step, update, hm]

/-- One step can mark a kind as one that cannot be built. -/
theorem isSome_defect?_step (a : Assembly) (s : TreeStep) (k : Kind) :
    (a.step s k).defect?.isSome = ((a k).defect?.isSome || s.fails k) := by
  cases s with
  | add j e =>
    by_cases hj : k = j
    · subst hj
      simp [step, update, TreeStep.fails, History.add]
    · simp [step, update, TreeStep.fails, hj]
  | fail m =>
    by_cases hm : k = m.kind
    · subst hm
      simp [step, update, TreeStep.fails, History.fail]
    · have hk : ¬m.kind = k := fun heq => hm heq.symm
      simp [step, update, TreeStep.fails, hm, hk]

/-- **A list of steps adds its entities to a kind**, in order. -/
theorem entities_run (steps : List TreeStep) (a : Assembly) (k : Kind) :
    (steps.foldl step a k).entities = (a k).entities ++ steps.filterMap (TreeStep.entity? k) := by
  induction steps generalizing a with
  | nil => simp
  | cons s rest ih =>
    rw [List.foldl_cons, ih, entities_step, List.append_assoc, List.filterMap_cons]
    cases s.entity? k with
    | none => rfl
    | some e => rfl

/-- **A list of steps marks a kind** just when one of them does. -/
theorem isSome_defect?_run (steps : List TreeStep) (a : Assembly) (k : Kind) :
    (steps.foldl step a k).defect?.isSome =
      ((a k).defect?.isSome || steps.any (TreeStep.fails k)) := by
  induction steps generalizing a with
  | nil => simp
  | cons s rest ih =>
    rw [List.foldl_cons, ih, isSome_defect?_step, List.any_cons, Bool.or_assoc]

end Assembly

/-! ## Building a kind -/

namespace History

/-- Filing an entity whose name must not be taken. -/
theorem file?_eq_ok_iff {c d : Catalog (Entity k)} {e : Entity k} :
    file? c e = .ok d ↔ True ∧ c.contains (key e) = false ∧ d = c.insert e := by
  unfold file?
  rw [show key e = e.name from rfl]
  cases hfree : c.contains e.name with
  | true => exact iff_of_false (fun h => by cases h) fun h => by cases h.2.1
  | false =>
    rw [if_neg (by decide), Except.ok.injEq, eq_comm]
    exact ⟨fun h => ⟨trivial, rfl, h⟩, fun h => h.2.2⟩

/-- **A kind is built from reordered entities alike**: into equal slots, or not at all. -/
theorem agree_slot {h h' : History k} (hdefect : h.defect?.isSome = h'.defect?.isSome)
    (hentities : Reordered Entity.Same h.entities h'.entities) :
    Agree (fun c d : Catalog (Entity k) => List.Forall₂ Entity.Same c.items d.items) h.slot
      h'.slot := by
  unfold slot
  cases hm : h.defect? with
  | some m =>
    cases hn : h'.defect? with
    | some n => exact .error m n
    | none => rw [hm, hn] at hdefect; cases hdefect
  | none =>
    cases hn : h'.defect? with
    | some n => rw [hm, hn] at hdefect; cases hdefect
    | none =>
      exact Catalog.agree_foldlM (fun _ _ hsame => hsame.1) (fun _ => True)
        (fun _ _ _ => file?_eq_ok_iff) (fun _ _ _ => Iff.rfl) List.Forall₂.nil hentities

end History

/-- **Steps that do the same in another order** build every kind alike. -/
theorem Tree.agree_ofSteps {steps steps' : List TreeStep}
    (h : Reordered TreeStep.Alike steps steps') (k : Kind) :
    Agree (fun c d : Catalog (Entity k) => List.Forall₂ Entity.Same c.items d.items)
      (ofSteps steps k) (ofSteps steps' k) := by
  refine History.agree_slot ?_ ?_
  · rw [Assembly.isSome_defect?_run, Assembly.isSome_defect?_run]
    have hany : steps.any (TreeStep.fails k) = steps'.any (TreeStep.fails k) := by
      have hmarks := (h.map_perm fun s t hst => hst.fails_eq k).any_eq (f := id)
      simpa only [List.any_map, Function.id_comp] using hmarks
    rw [hany]
  · rw [Assembly.entities_run, Assembly.entities_run]
    exact h.filterMap fun s t hst => hst.entity? k

/-! ## Declarations -/

/-- **What a release is declared by.** -/
inductive Declaration where
  /-- An entity that was built before. -/
  | built (k : Kind) (entity : Entity k)
  /-- A draft. If it cannot be built, then its kind cannot. -/
  | draft (k : Kind) (draft : Draft k)
  /-- A kind is marked as one that cannot be built. -/
  | failure (defect : Malformed)

namespace Declaration

/-- The step that takes a declaration. -/
def step : Declaration → TreeStep
  | built k e => .add k e
  | draft _ d => .ofResult d.build?
  | failure m => .fail m

/-- **Declarations of the same thing**: of equal entities, of rearranged drafts or of the same
failure. -/
inductive Rearranged : Declaration → Declaration → Prop where
  /-- Equal entities. -/
  | built {k : Kind} {e e' : Entity k} (h : e.Same e') : Rearranged (built k e) (built k e')
  /-- Rearranged drafts. -/
  | draft {k : Kind} {d d' : Draft k} (h : d.Rearranged d') : Rearranged (draft k d) (draft k d')
  /-- The same failure. -/
  | failure (m : Malformed) : Rearranged (failure m) (failure m)

/-- Declarations of the same thing are taken alike. -/
theorem Rearranged.alike {d d' : Declaration} (h : Rearranged d d') : d.step.Alike d'.step := by
  cases h with
  | built h => exact .add h
  | @draft k d d' h =>
    exact .ofResult (Draft.agree_build? h) (Draft.blames_build? d) (Draft.blames_build? d')
  | failure m => exact .fail rfl

end Declaration

namespace Tree

/-- **The release of a list of declarations.** -/
def declared (ds : List Declaration) : Tree := ofSteps (ds.map Declaration.step)

variable {ds ds' : List Declaration}

/-- Rearranged declarations build every kind alike. -/
theorem agree_declared (h : Reordered Declaration.Rearranged ds ds') (k : Kind) :
    Agree (fun c d : Catalog (Entity k) => List.Forall₂ Entity.Same c.items d.items)
      (declared ds k) (declared ds' k) :=
  agree_ofSteps (h.map fun _ _ hd => hd.alike) k

/-- Rearranged declarations of which one builds every kind declare equal releases. -/
theorem same_declared (h : Reordered Declaration.Rearranged ds ds')
    (hok : ∀ k, (declared ds k).isOk = true) : Same (declared ds) (declared ds') := by
  intro k
  have hagree := agree_declared h k
  have hk := hok k
  generalize declared ds k = s, declared ds' k = s' at hagree hk ⊢
  cases hagree with
  | ok hsame => exact (Slot.sameEntities_iff _ _).2 hsame
  | error m n => cases hk

end Tree

/-- **The order of declaration does not matter.** Rearranged drafts build together. Rearranged
declarations build the same kinds, and if they build every kind, then the releases are equal and no
comparison tells them apart, on either side and whatever is compared. In general, equal releases are
interchangeable in every comparison.

**Proof sketch.** A kind is built by filing its entities. Filing succeeds just when no draft failed
and no name recurs, and neither depends on the order; what is filed under a name is the same up to
equality of entities. A comparison looks at entities only up to that equality. -/
theorem classify_rearranged :
    (∀ (k : Kind) (d d' : Draft k), d.Rearranged d' → d.build?.isOk = d'.build?.isOk) ∧
      (∀ ds ds' : List Declaration, Reordered Declaration.Rearranged ds ds' →
        (∀ k, (Tree.declared ds k).isOk = (Tree.declared ds' k).isOk) ∧
          ((∀ k, (Tree.declared ds k).isOk = true) →
            Tree.Same (Tree.declared ds) (Tree.declared ds') ∧
              ∀ (config : Config) (other : Tree),
                classify config (Tree.declared ds) other =
                    classify config (Tree.declared ds') other ∧
                  classify config other (Tree.declared ds) =
                    classify config other (Tree.declared ds'))) ∧
      ∀ (config : Config) (before before' after after' : Tree), Tree.Same before before' →
        Tree.Same after after' →
          classify config before after = classify config before' after' := by
  refine ⟨fun k d d' h => (Draft.agree_build? h).isOk_eq, fun ds ds' h => ?_,
    fun config _ _ _ _ hb ha => classify_congr config hb ha⟩
  refine ⟨fun k => (Tree.agree_declared h k).isOk_eq, fun hok => ?_⟩
  have hsame : Tree.Same (Tree.declared ds) (Tree.declared ds') := Tree.same_declared h hok
  refine ⟨hsame, fun config other => ⟨?_, ?_⟩⟩
  · exact classify_congr config hsame (Tree.Same.refl other)
  · exact classify_congr config (Tree.Same.refl other) hsame

/-- A customer and the operation that creates one, each declared first in one of the releases. The
street of the customer repeats a line, and the operation nests its fields. -/
theorem classify_rearranged_customer :
    let customer (fields : List DataField) (street : List String) : Draft .data :=
      ⟨"Customer", [], { fields, arrays := [⟨"street", street⟩] }⟩
    let create (fields : FieldForest) : Draft .metadata :=
      ⟨"CreateCustomer", [], ⟨.cons "customer" ∅ fields .nil⟩⟩
    let field (key : String) : FieldForest → FieldForest := .cons key ∅ .nil
    let name : DataField := ⟨"name", "Ada"⟩
    let email : DataField := ⟨"email", "ada"⟩
    let draft := customer [name, email] ["one", "two", "one"]
    let draft' := customer [email, name] ["two", "one"]
    let before := Tree.declared [.draft .data draft,
      .draft .metadata (create (field "name" (field "email" .nil)))]
    let after := Tree.declared [.draft .metadata (create (field "email" (field "name" .nil))),
      .draft .data draft']
    draft.Rearranged draft' ∧ draft.build?.isOk = draft'.build?.isOk ∧
      (∀ k, (before k).isOk = true) ∧ (∀ k, (before k).isOk = (after k).isOk) ∧
      Tree.Same before after ∧
      classify {} before Tree.empty = classify {} after Tree.empty ∧
      classify {} before after = classify {} after before := by
  intro customer create field name email draft draft' before after
  have hdraft : draft.Rearranged draft' := by
    refine ⟨rfl, rfl, List.Perm.swap _ _ _, .of_forall₂ ?_, List.Perm.refl _, List.Perm.refl _⟩
    refine List.Forall₂.cons ⟨rfl, fun v => ?_⟩ List.Forall₂.nil
    simp [or_comm]
  have hcreate : (create (field "name" (field "email" .nil))).Rearranged
      (create (field "email" (field "name" .nil))) :=
    ⟨rfl, rfl, .cons _ _ (.swap _ _ _ _ _ _ _) .nil⟩
  have hreordered : Reordered Declaration.Rearranged _ _ :=
    ⟨_, List.Perm.swap _ _ _, .cons (.draft hcreate) (.cons (.draft hdraft) .nil)⟩
  have hok : ∀ k, (before k).isOk = true := by decide
  obtain ⟨hbuild, hdeclared, hequal⟩ := classify_rearranged
  obtain ⟨hkinds, hrest⟩ := hdeclared _ _ hreordered
  obtain ⟨hsame, hclassify⟩ := hrest hok
  exact ⟨hdraft, hbuild _ _ _ hdraft, hok, hkinds, hsame, (hclassify {} Tree.empty).1,
    hequal {} _ _ _ _ hsame (by decide)⟩

end ReleaseDiff
