import ReleaseDiff.Entity.Draft
import ReleaseDiff.Fault

set_option autoImplicit false

/-!
# Artifact trees

A tree is one release of a module: for every kind either the catalog of its entities or the reason
why the kind cannot be built. A tree is assembled step by step, entity by entity, in any order.

## Main definitions

* `ReleaseDiff.Defect` — a defect of a kind.
* `ReleaseDiff.Slot` — the entities of one kind, or the reason why there are none.
* `ReleaseDiff.Tree` — a slot for every kind.
* `ReleaseDiff.Assembly` — what has been declared so far.
* `ReleaseDiff.Tree.ofSteps` — the tree that a list of steps assembles.
-/

namespace ReleaseDiff

/-- A defect of a kind. -/
abbrev Defect (k : Kind) := { m : Malformed // m.kind = k }

/-- **The entities of one kind**, or the reason why the kind cannot be built. -/
abbrev Slot (k : Kind) := Except (Defect k) (Catalog (Entity k))

namespace Slot

variable {k : Kind}

/-- The defect of a slot. -/
def defect? : Slot k → Option (Defect k)
  | .ok _ => none
  | .error m => some m

/-- The entities of a slot; none where the kind cannot be built. -/
def entities : Slot k → Catalog (Entity k)
  | .ok c => c
  | .error _ => ∅

/-- Pairwise equality of two lists of entities, positions of array items apart. -/
def SameEntities : List (Entity k) → List (Entity k) → Prop
  | [], [] => True
  | a :: as, b :: bs => a.Same b ∧ SameEntities as bs
  | _, _ => False

instance decidableSameEntities : (as bs : List (Entity k)) → Decidable (SameEntities as bs)
  | [], [] => inferInstanceAs (Decidable True)
  | a :: as, b :: bs =>
    have := decidableSameEntities as bs
    inferInstanceAs (Decidable (a.Same b ∧ SameEntities as bs))
  | [], _ :: _ => inferInstanceAs (Decidable False)
  | _ :: _, [] => inferInstanceAs (Decidable False)

/-- **Equality of slots**: the same entities, or the same defect. -/
def Same : Slot k → Slot k → Prop
  | .ok c, .ok d => SameEntities c.items d.items
  | .error m, .error n => m = n
  | _, _ => False

instance : (a b : Slot k) → Decidable (Same a b)
  | .ok c, .ok d => inferInstanceAs (Decidable (SameEntities c.items d.items))
  | .error m, .error n => inferInstanceAs (Decidable (m = n))
  | .ok _, .error _ => inferInstanceAs (Decidable False)
  | .error _, .ok _ => inferInstanceAs (Decidable False)

end Slot

/-- **A tree**: a slot for every kind. -/
abbrev Tree := (k : Kind) → Slot k

namespace Tree

/-- The tree without entities. -/
def empty : Tree := fun _ => .ok ∅

/-- **Equality of trees**, slot by slot. -/
def Same (a b : Tree) : Prop := ∀ k, Slot.Same (a k) (b k)

instance (a b : Tree) : Decidable (Same a b) :=
  inferInstanceAs (Decidable (∀ k, Slot.Same (a k) (b k)))

end Tree

/-! ## Assembling a tree -/

/-- **A step of assembling a tree.** -/
inductive TreeStep where
  /-- An entity is added. -/
  | add (k : Kind) (entity : Entity k)
  /-- The kind of a defect is marked as one that cannot be built. -/
  | fail (defect : Malformed)

namespace TreeStep

/-- The step that adds what building an entity gave. -/
def ofResult {k : Kind} : Except Malformed (Entity k) → TreeStep
  | .ok e => add k e
  | .error m => fail m

/-- The kind that a step concerns. -/
def kind : TreeStep → Kind
  | add k _ => k
  | fail m => m.kind

end TreeStep

/-- What has been declared of one kind so far. -/
structure History (k : Kind) where
  /-- The entities, in the order in which they were added. -/
  entities : List (Entity k) := []
  /-- The first defect reported for the kind. -/
  defect? : Option (Defect k) := none

namespace History

variable {k : Kind}

/-- Adds an entity. -/
def add (h : History k) (e : Entity k) : History k :=
  { h with entities := h.entities ++ [e] }

/-- Reports a defect; the first one stays. -/
def fail (h : History k) (m : Defect k) : History k :=
  { h with defect? := some (h.defect?.getD m) }

/-- Files an entity whose name is not taken. -/
def file? (c : Catalog (Entity k)) (e : Entity k) : Slot k :=
  if c.contains e.name then .error ⟨.duplicateEntity k e.name, rfl⟩ else .ok (c.insert e)

/-- The slot that was declared. A reported defect comes before a repeated name. -/
def slot (h : History k) : Slot k :=
  match h.defect? with
  | some m => .error m
  | none => h.entities.foldlM file? ∅

end History

/-- **What has been declared so far**, kind by kind. -/
abbrev Assembly := (k : Kind) → History k

namespace Assembly

/-- Nothing has been declared. -/
def start : Assembly := fun _ => {}

/-- Changes what has been declared of one kind. -/
def update (a : Assembly) (k : Kind) (f : History k → History k) : Assembly :=
  fun j => if h : j = k then h ▸ f (a k) else a j

/-- Takes one step. -/
def step (a : Assembly) : TreeStep → Assembly
  | .add k e => a.update k (·.add e)
  | .fail m => a.update m.kind (·.fail ⟨m, rfl⟩)

/-- The tree declared so far. -/
def tree (a : Assembly) : Tree := fun k => (a k).slot

end Assembly

namespace Tree

/-- **The tree that a list of steps assembles.** -/
def ofSteps (steps : List TreeStep) : Tree :=
  (steps.foldl Assembly.step .start).tree

/-- The trees before the first step and after each step. -/
def states (steps : List TreeStep) : List Tree :=
  (List.range (steps.length + 1)).map fun n => ofSteps (steps.take n)

end Tree

end ReleaseDiff
