import ReleaseDiff.Kind

set_option autoImplicit false

/-!
# Shapes of change

Every change that a comparison can find has a shape: what happened, at which level of which kind of
entity. The set of shapes is closed.

## Main definitions

* `ReleaseDiff.Shape` — the shapes of a kind.
* `ReleaseDiff.AnyShape` — a shape of some kind.
* `ReleaseDiff.AnyShape.all` — every shape, kind by kind, in the order of declaration.
-/

namespace ReleaseDiff

/-- What can happen to an action group. -/
inductive ActionGroupShape where
  /-- The entity appears. -/
  | entityAdded
  /-- The entity disappears. -/
  | entityRemoved
  /-- An attribute of the entity differs. -/
  | attributeChanged
  /-- An argument appears. -/
  | argumentAdded
  /-- An argument disappears. -/
  | argumentRemoved
  /-- An attribute of an argument differs. -/
  | argumentChanged
  /-- A step appears. -/
  | actionAdded
  /-- A step disappears. -/
  | actionRemoved
  /-- An attribute of a step differs. -/
  | actionChanged
  /-- A step does something else. -/
  | actionTypeChanged
  /-- A step calls another action group. -/
  | actionGroupRefChanged
  deriving DecidableEq, Repr

namespace ActionGroupShape

/-- All shapes of the kind. -/
def all : List ActionGroupShape :=
  [entityAdded, entityRemoved, attributeChanged, argumentAdded, argumentRemoved,
   argumentChanged, actionAdded, actionRemoved, actionChanged, actionTypeChanged,
   actionGroupRefChanged]

theorem mem_all (s : ActionGroupShape) : s ∈ all := by cases s <;> decide

/-- The name of a shape. -/
def name : ActionGroupShape → String
  | entityAdded => "Added"
  | entityRemoved => "Removed"
  | attributeChanged => "AttributeChanged"
  | argumentAdded => "ArgumentAdded"
  | argumentRemoved => "ArgumentRemoved"
  | argumentChanged => "ArgumentChanged"
  | actionAdded => "ActionAdded"
  | actionRemoved => "ActionRemoved"
  | actionChanged => "ActionChanged"
  | actionTypeChanged => "ActionTypeChanged"
  | actionGroupRefChanged => "ActionGroupRefChanged"

end ActionGroupShape

/-- What can happen to a test. -/
inductive TestShape where
  /-- The entity appears. -/
  | entityAdded
  /-- The entity disappears. -/
  | entityRemoved
  /-- An attribute of the entity differs. -/
  | attributeChanged
  /-- A step appears. -/
  | actionAdded
  /-- A step disappears. -/
  | actionRemoved
  /-- An attribute of a step differs. -/
  | actionChanged
  /-- A step does something else. -/
  | actionTypeChanged
  /-- A step calls another action group. -/
  | actionGroupRefChanged
  /-- An annotation with a single text appears. -/
  | annotationAdded
  /-- An annotation with a single text disappears or differs. -/
  | annotationChanged
  /-- A group value appears. -/
  | groupAdded
  /-- A group value disappears. -/
  | groupRemoved
  /-- One more inherited step is dropped. -/
  | removeActionAdded
  /-- An inherited step is no longer dropped. -/
  | removeActionRemoved
  deriving DecidableEq, Repr

namespace TestShape

/-- All shapes of the kind. -/
def all : List TestShape :=
  [entityAdded, entityRemoved, attributeChanged, actionAdded, actionRemoved, actionChanged,
   actionTypeChanged, actionGroupRefChanged, annotationAdded, annotationChanged, groupAdded,
   groupRemoved, removeActionAdded, removeActionRemoved]

theorem mem_all (s : TestShape) : s ∈ all := by cases s <;> decide

/-- The name of a shape. -/
def name : TestShape → String
  | entityAdded => "Added"
  | entityRemoved => "Removed"
  | attributeChanged => "AttributeChanged"
  | actionAdded => "ActionAdded"
  | actionRemoved => "ActionRemoved"
  | actionChanged => "ActionChanged"
  | actionTypeChanged => "ActionTypeChanged"
  | actionGroupRefChanged => "ActionGroupRefChanged"
  | annotationAdded => "AnnotationAdded"
  | annotationChanged => "AnnotationChanged"
  | groupAdded => "GroupAdded"
  | groupRemoved => "GroupRemoved"
  | removeActionAdded => "RemoveActionAdded"
  | removeActionRemoved => "RemoveActionRemoved"

end TestShape

/-- What can happen to a page. -/
inductive PageShape where
  /-- The entity appears. -/
  | entityAdded
  /-- The entity disappears. -/
  | entityRemoved
  /-- An attribute of the entity differs. -/
  | attributeChanged
  /-- A section reference appears. -/
  | sectionAdded
  /-- A section reference disappears. -/
  | sectionRemoved
  /-- An attribute of a section reference differs. -/
  | sectionChanged
  deriving DecidableEq, Repr

namespace PageShape

/-- All shapes of the kind. -/
def all : List PageShape :=
  [entityAdded, entityRemoved, attributeChanged, sectionAdded, sectionRemoved, sectionChanged]

theorem mem_all (s : PageShape) : s ∈ all := by cases s <;> decide

/-- The name of a shape. -/
def name : PageShape → String
  | entityAdded => "Added"
  | entityRemoved => "Removed"
  | attributeChanged => "AttributeChanged"
  | sectionAdded => "SectionAdded"
  | sectionRemoved => "SectionRemoved"
  | sectionChanged => "SectionChanged"

end PageShape

/-- What can happen to a section. -/
inductive PageSectionShape where
  /-- The entity appears. -/
  | entityAdded
  /-- The entity disappears. -/
  | entityRemoved
  /-- An attribute of the entity differs. -/
  | attributeChanged
  /-- An element appears. -/
  | elementAdded
  /-- An element disappears. -/
  | elementRemoved
  /-- An attribute of an element differs. -/
  | elementChanged
  deriving DecidableEq, Repr

namespace PageSectionShape

/-- All shapes of the kind. -/
def all : List PageSectionShape :=
  [entityAdded, entityRemoved, attributeChanged, elementAdded, elementRemoved, elementChanged]

theorem mem_all (s : PageSectionShape) : s ∈ all := by cases s <;> decide

/-- The name of a shape. -/
def name : PageSectionShape → String
  | entityAdded => "Added"
  | entityRemoved => "Removed"
  | attributeChanged => "AttributeChanged"
  | elementAdded => "ElementAdded"
  | elementRemoved => "ElementRemoved"
  | elementChanged => "ElementChanged"

end PageSectionShape

/-- What can happen to a data entity. -/
inductive DataEntityShape where
  /-- The entity appears. -/
  | entityAdded
  /-- The entity disappears. -/
  | entityRemoved
  /-- An attribute of the entity differs. -/
  | attributeChanged
  /-- A field appears. -/
  | fieldAdded
  /-- A field disappears. -/
  | fieldRemoved
  /-- The text of a field differs. -/
  | fieldChanged
  /-- An array appears. -/
  | arrayAdded
  /-- An array disappears. -/
  | arrayRemoved
  /-- A text appears in an array. -/
  | arrayItemAdded
  /-- A text disappears from an array. -/
  | arrayItemRemoved
  /-- A required entity appears. -/
  | requiredEntityAdded
  /-- A required entity disappears. -/
  | requiredEntityRemoved
  /-- An attribute of a required entity differs. -/
  | requiredEntityChanged
  /-- A variable appears. -/
  | varAdded
  /-- A variable disappears. -/
  | varRemoved
  /-- An attribute of a variable differs. -/
  | varChanged
  deriving DecidableEq, Repr

namespace DataEntityShape

/-- All shapes of the kind. -/
def all : List DataEntityShape :=
  [entityAdded, entityRemoved, attributeChanged, fieldAdded, fieldRemoved, fieldChanged,
   arrayAdded, arrayRemoved, arrayItemAdded, arrayItemRemoved, requiredEntityAdded,
   requiredEntityRemoved, requiredEntityChanged, varAdded, varRemoved, varChanged]

theorem mem_all (s : DataEntityShape) : s ∈ all := by cases s <;> decide

/-- The name of a shape. -/
def name : DataEntityShape → String
  | entityAdded => "Added"
  | entityRemoved => "Removed"
  | attributeChanged => "AttributeChanged"
  | fieldAdded => "FieldAdded"
  | fieldRemoved => "FieldRemoved"
  | fieldChanged => "FieldChanged"
  | arrayAdded => "ArrayAdded"
  | arrayRemoved => "ArrayRemoved"
  | arrayItemAdded => "ArrayItemAdded"
  | arrayItemRemoved => "ArrayItemRemoved"
  | requiredEntityAdded => "RequiredEntityAdded"
  | requiredEntityRemoved => "RequiredEntityRemoved"
  | requiredEntityChanged => "RequiredEntityChanged"
  | varAdded => "VarAdded"
  | varRemoved => "VarRemoved"
  | varChanged => "VarChanged"

end DataEntityShape

/-- What can happen to a metadata operation. -/
inductive OperationShape where
  /-- The entity appears. -/
  | entityAdded
  /-- The entity disappears. -/
  | entityRemoved
  /-- An attribute of the entity differs. -/
  | attributeChanged
  /-- A field appears, on any level. -/
  | childAdded
  /-- A field disappears, on any level. -/
  | childRemoved
  /-- An attribute of a field differs, on any level. -/
  | childChanged
  deriving DecidableEq, Repr

namespace OperationShape

/-- All shapes of the kind. -/
def all : List OperationShape :=
  [entityAdded, entityRemoved, attributeChanged, childAdded, childRemoved, childChanged]

theorem mem_all (s : OperationShape) : s ∈ all := by cases s <;> decide

/-- The name of a shape. -/
def name : OperationShape → String
  | entityAdded => "Added"
  | entityRemoved => "Removed"
  | attributeChanged => "AttributeChanged"
  | childAdded => "ChildAdded"
  | childRemoved => "ChildRemoved"
  | childChanged => "ChildChanged"

end OperationShape

/-- **The shapes of a kind.** -/
abbrev Shape : Kind → Type
  | .actionGroup => ActionGroupShape
  | .test => TestShape
  | .page => PageShape
  | .pageSection => PageSectionShape
  | .data => DataEntityShape
  | .metadata => OperationShape

namespace Shape

/-- All shapes of a kind, in the order of declaration. -/
def all : (k : Kind) → List (Shape k)
  | .actionGroup => ActionGroupShape.all
  | .test => TestShape.all
  | .page => PageShape.all
  | .pageSection => PageSectionShape.all
  | .data => DataEntityShape.all
  | .metadata => OperationShape.all

/-- The name of a shape within its kind. -/
def name : (k : Kind) → Shape k → String
  | .actionGroup, s => ActionGroupShape.name s
  | .test, s => TestShape.name s
  | .page, s => PageShape.name s
  | .pageSection, s => PageSectionShape.name s
  | .data, s => DataEntityShape.name s
  | .metadata, s => OperationShape.name s

instance decEq : (k : Kind) → DecidableEq (Shape k)
  | .actionGroup => inferInstanceAs (DecidableEq ActionGroupShape)
  | .test => inferInstanceAs (DecidableEq TestShape)
  | .page => inferInstanceAs (DecidableEq PageShape)
  | .pageSection => inferInstanceAs (DecidableEq PageSectionShape)
  | .data => inferInstanceAs (DecidableEq DataEntityShape)
  | .metadata => inferInstanceAs (DecidableEq OperationShape)

theorem mem_all : (k : Kind) → (s : Shape k) → s ∈ all k
  | .actionGroup => ActionGroupShape.mem_all
  | .test => TestShape.mem_all
  | .page => PageShape.mem_all
  | .pageSection => PageSectionShape.mem_all
  | .data => DataEntityShape.mem_all
  | .metadata => OperationShape.mem_all

/-- The shape of an entity that appears. -/
def entityAdded : (k : Kind) → Shape k
  | .actionGroup => ActionGroupShape.entityAdded
  | .test => TestShape.entityAdded
  | .page => PageShape.entityAdded
  | .pageSection => PageSectionShape.entityAdded
  | .data => DataEntityShape.entityAdded
  | .metadata => OperationShape.entityAdded

/-- The shape of an entity that disappears. -/
def entityRemoved : (k : Kind) → Shape k
  | .actionGroup => ActionGroupShape.entityRemoved
  | .test => TestShape.entityRemoved
  | .page => PageShape.entityRemoved
  | .pageSection => PageSectionShape.entityRemoved
  | .data => DataEntityShape.entityRemoved
  | .metadata => OperationShape.entityRemoved

/-- The shape of an attribute of an entity that differs. -/
def attributeChanged : (k : Kind) → Shape k
  | .actionGroup => ActionGroupShape.attributeChanged
  | .test => TestShape.attributeChanged
  | .page => PageShape.attributeChanged
  | .pageSection => PageSectionShape.attributeChanged
  | .data => DataEntityShape.attributeChanged
  | .metadata => OperationShape.attributeChanged

end Shape

/-- **A shape of some kind.** -/
structure AnyShape where
  /-- The kind of entity that changes. -/
  kind : Kind
  /-- What happens to it. -/
  shape : Shape kind

namespace AnyShape

instance : DecidableEq AnyShape
  | ⟨k, s⟩, ⟨l, t⟩ =>
    if h : k = l then
      decidable_of_iff (h ▸ s = t) ⟨fun e => by subst h; cases e; rfl, fun e => by cases e; rfl⟩
    else isFalse fun e => h (congrArg AnyShape.kind e)

/-- **Every shape**, kind by kind, in the order of declaration. -/
def all : List AnyShape :=
  Kind.all.flatMap fun k => (Shape.all k).map (AnyShape.mk k)

theorem mem_all (s : AnyShape) : s ∈ all :=
  List.mem_flatMap.2 ⟨s.kind, Kind.mem_all _, List.mem_map.2 ⟨s.shape, Shape.mem_all _ _, rfl⟩⟩

/-- The label of a shape: its kind, and in parentheses its name. -/
def label (s : AnyShape) : String :=
  s.kind.label ++ "(" ++ Shape.name s.kind s.shape ++ ")"

/-- The shape of a label. -/
def ofLabel? (label : String) : Option AnyShape :=
  all.find? fun s => s.label == label

/-- The place of a shape among all shapes. -/
def rank (s : AnyShape) : Nat := all.idxOf s

end AnyShape

end ReleaseDiff
