import ReleaseDiff.Text.Choice

set_option autoImplicit false

/-!
# Artifact kinds

A test-automation module consists of entities of six kinds. Their order here is the order in which
every report lists them.

## Main definitions

* `ReleaseDiff.Kind` — the six kinds.
* `ReleaseDiff.Kind.all` — all of them, in report order.
-/

namespace ReleaseDiff

/-- **The kind of an entity.** -/
inductive Kind where
  /-- A reusable group of steps with arguments. -/
  | actionGroup
  /-- A test: annotations, hooks and steps. -/
  | test
  /-- A page: references to sections. -/
  | page
  /-- A section: named elements of a page. -/
  | pageSection
  /-- A data entity: fields, arrays, references and variables. -/
  | data
  /-- A metadata operation: a tree of fields. -/
  | metadata
  deriving DecidableEq, Repr, Inhabited

namespace Kind

/-- All kinds, in report order. -/
def all : List Kind := [actionGroup, test, page, pageSection, data, metadata]

theorem mem_all (k : Kind) : k ∈ all := by cases k <;> decide

/-- The name of a kind. -/
def label : Kind → String
  | actionGroup => "ActionGroup"
  | test => "Test"
  | page => "Page"
  | pageSection => "Section"
  | data => "Data"
  | metadata => "Metadata"

/-- The place of a kind in report order. -/
def rank (k : Kind) : Nat := all.idxOf k

/-- The kind of a name. -/
def ofLabel? (name : String) : Option Kind :=
  all.find? fun k => k.label == name

/-- The kind of a name, or what is wrong with the name. -/
def read (name : String) : Except Text.UnknownWord Kind := Text.choose all label name

/-- A statement about every kind can be checked kind by kind. -/
instance decidableForall (p : Kind → Prop) [DecidablePred p] : Decidable (∀ k, p k) :=
  decidable_of_iff (∀ k ∈ all, p k) ⟨fun h k => h k (mem_all k), fun h k _ => h k⟩

end Kind

end ReleaseDiff
