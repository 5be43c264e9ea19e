import ReleaseDiff.Entity.Basic

set_option autoImplicit false

/-!
# Drafts of entities

A draft is an entity as declared: every collection is a list in the order of declaration, and
nothing has been checked. Building a draft checks it collection by collection.

## Main definitions

* `ReleaseDiff.Parts` — the declared collections of an entity of a kind.
* `ReleaseDiff.Draft` — a declared entity.
* `ReleaseDiff.Draft.build?` — the entity, or the first defect.
-/

namespace ReleaseDiff

/-- The declared collections of an action group. -/
structure ActionGroupParts where
  /-- The arguments. -/
  arguments : List Child := []
  /-- The steps. -/
  actions : List Step := []

/-- The declared collections of a test. -/
structure TestParts where
  /-- The annotations, as pairs of name and text. -/
  annotations : List (String × String) := []
  /-- The steps of the set-up hook. -/
  before : List Step := []
  /-- The steps of the test itself. -/
  actions : List Step := []
  /-- The steps of the clean-up hook. -/
  after : List Step := []
  /-- The keys of inherited steps that the test drops. -/
  removeActions : List String := []

/-- The declared collections of a page. -/
structure PageParts where
  /-- The references to sections. -/
  sections : List Child := []

/-- The declared collections of a section. -/
structure PageSectionParts where
  /-- The elements. -/
  elements : List Child := []

/-- A declared array: its key and the texts of its items. -/
structure ArrayParts where
  /-- The key. -/
  key : String
  /-- The texts, in the order of declaration. -/
  items : List String

/-- The declared collections of a data entity. -/
structure DataParts where
  /-- The fields. -/
  fields : List DataField := []
  /-- The arrays. -/
  arrays : List ArrayParts := []
  /-- The data entities that this one refers to. -/
  requiredEntities : List Child := []
  /-- The variables. -/
  vars : List Child := []

/-- The declared fields of a metadata operation. -/
structure OperationParts where
  /-- The fields, nested to any depth. -/
  fields : FieldForest := .nil

/-- **The declared collections of an entity of a kind.** -/
abbrev Parts : Kind → Type
  | .actionGroup => ActionGroupParts
  | .test => TestParts
  | .page => PageParts
  | .pageSection => PageSectionParts
  | .data => DataParts
  | .metadata => OperationParts

/-- **A declared entity.** -/
structure Draft (k : Kind) where
  /-- The name. -/
  name : String
  /-- The attributes, in the order of declaration. -/
  attributes : List Attribute := []
  /-- The declared collections. -/
  parts : Parts k

/-- Reads a collection whose keys must be distinct. -/
def Place.distinct? {α : Type} [Keyed α] (place : Place) (items : List α) :
    Except Malformed (Catalog α) :=
  place.blame (Catalog.ofDistinct? items)

namespace ArrayParts

/-- The declared texts with their places, counted from zero. -/
def positioned (texts : List String) : List ArrayItem :=
  texts.zipIdx.map fun p => ⟨p.1, p.2⟩

/-- The items of a declared array. A text that recurs keeps its first place. -/
def items? (texts : List String) : Except KeyDefect (Catalog ArrayItem) :=
  Catalog.ofFirsts? (positioned texts)

/-- The array of a declared one. -/
def build? (place : Place) (a : ArrayParts) : Except Malformed DataArray := do
  return ⟨a.key, ← place.blame (items? a.items)⟩

end ArrayParts

/-- Builds the body of an action group: arguments, then steps. -/
def ActionGroupParts.build? (place : String → Place) (p : ActionGroupParts) :
    Except Malformed ActionGroup := do
  let arguments ← (place "Arguments").distinct? p.arguments
  let actions ← (place "Actions").distinct? p.actions
  return { arguments, actions }

/-- Reads the declared annotations of a test. -/
def TestParts.annotations? (place : Place) (pairs : List (String × String)) :
    Except Malformed { a : Annotations // a.WellFormed } :=
  match h : Annotations.ofPairs? pairs with
  | .ok a => .ok ⟨a, Annotations.wellFormed_of_ofPairs? h⟩
  | .error defect => .error (place.malformed defect)

/-- Builds the body of a test: annotations, then the steps in the order in which they run, then the
dropped steps. -/
def TestParts.build? (place : String → Place) (p : TestParts) : Except Malformed Test := do
  let ⟨annotations, wellFormed⟩ ← TestParts.annotations? (place "Annotations") p.annotations
  let before ← (place "Before").distinct? p.before
  let actions ← (place "Actions").distinct? p.actions
  let after ← (place "After").distinct? p.after
  let removeActions ← (place "RemoveActions").distinct? p.removeActions
  return { annotations, wellFormed, before, actions, after, removeActions }

/-- Builds the body of a page. -/
def PageParts.build? (place : String → Place) (p : PageParts) : Except Malformed Page := do
  let sections ← (place "Sections").distinct? p.sections
  return { sections }

/-- Builds the body of a section. -/
def PageSectionParts.build? (place : String → Place) (p : PageSectionParts) :
    Except Malformed PageSection := do
  let elements ← (place "Elements").distinct? p.elements
  return { elements }

/-- Builds the body of a data entity: the items of every array in the order of declaration, then
fields, arrays, required entities and variables. -/
def DataParts.build? (place : String → Place) (p : DataParts) : Except Malformed DataEntity := do
  let declared ← p.arrays.mapM (ArrayParts.build? (place "Items"))
  let fields ← (place "Fields").distinct? p.fields
  let arrays ← (place "Arrays").distinct? declared
  let requiredEntities ← (place "RequiredEntities").distinct? p.requiredEntities
  let vars ← (place "Vars").distinct? p.vars
  return { fields, arrays, requiredEntities, vars }

/-- Builds the body of a metadata operation. -/
def OperationParts.build? (place : String → Place) (p : OperationParts) :
    Except Malformed Operation :=
  match h : p.fields.arrange? (place "Fields") with
  | .ok fields => .ok ⟨fields, FieldForest.ordered_of_arrange? h⟩
  | .error m => .error m

/-- Builds the body of an entity of any kind. -/
def Parts.build? (place : String → Place) : (k : Kind) → Parts k → Except Malformed (Body k)
  | .actionGroup, p => ActionGroupParts.build? place p
  | .test, p => TestParts.build? place p
  | .page, p => PageParts.build? place p
  | .pageSection, p => PageSectionParts.build? place p
  | .data, p => DataParts.build? place p
  | .metadata, p => OperationParts.build? place p

/-- **Builds an entity.** The name is checked first, then the collections in turn; the first defect
is reported. Of attributes with one name the last stays. -/
def Draft.build? {k : Kind} (d : Draft k) : Except Malformed (Entity k) := do
  if d.name = "" then throw (.missingIdentifier k "" "name")
  let body ← Parts.build? (⟨k, d.name, ·⟩) k d.parts
  return { name := d.name, attributes := Catalog.ofList d.attributes, body }

end ReleaseDiff
