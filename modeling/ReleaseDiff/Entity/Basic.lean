import ReleaseDiff.Annotation
import ReleaseDiff.FieldForest
import ReleaseDiff.Kind
import ReleaseDiff.Step

set_option autoImplicit false

/-!
# Entities

An entity has a name, attributes and a body whose shape depends on its kind. Every collection of a
body is a catalog: its keys are distinct and its items are in key order.

## Main definitions

* `ReleaseDiff.Body` — what an entity of a kind consists of, beyond name and attributes.
* `ReleaseDiff.Entity` — an entity of a kind.
* `ReleaseDiff.Entity.Same` — equality that leaves the positions of array items out of account.
-/

namespace ReleaseDiff

/-! ## Bodies -/

/-- The body of an action group. -/
structure ActionGroup where
  /-- The arguments that a caller gives. -/
  arguments : Catalog Child
  /-- The steps. -/
  actions : Catalog Step
  deriving DecidableEq

/-- The body of a test. -/
structure Test where
  /-- The annotations. -/
  annotations : Annotations
  /-- Sets of values stand where a name may recur, and only there. -/
  wellFormed : annotations.WellFormed
  /-- The steps of the set-up hook. -/
  before : Catalog Step
  /-- The steps of the test itself. -/
  actions : Catalog Step
  /-- The steps of the clean-up hook. -/
  after : Catalog Step
  /-- The keys of inherited steps that the test drops. -/
  removeActions : Catalog String
  deriving DecidableEq

/-- The body of a page. -/
structure Page where
  /-- The references to sections. -/
  sections : Catalog Child
  deriving DecidableEq

/-- The body of a section. -/
structure PageSection where
  /-- The elements. -/
  elements : Catalog Child
  deriving DecidableEq

/-- A field of a data entity. -/
structure DataField where
  /-- The key. -/
  key : String
  /-- The text. -/
  value : String
  deriving DecidableEq

instance : Keyed DataField := ⟨DataField.key⟩

/-- An item of an array. Its text is its key. -/
structure ArrayItem where
  /-- The text. -/
  value : String
  /-- The place of its first occurrence in the declared array. -/
  position : Nat
  deriving DecidableEq

instance : Keyed ArrayItem := ⟨ArrayItem.value⟩

/-- An array of a data entity. -/
structure DataArray where
  /-- The key. -/
  key : String
  /-- The items, in the order of their texts. -/
  items : Catalog ArrayItem
  deriving DecidableEq

instance : Keyed DataArray := ⟨DataArray.key⟩

/-- The key of an array and its texts, without their positions. -/
def DataArray.contents (a : DataArray) : String × List String := (a.key, a.items.keys)

/-- The body of a data entity. -/
structure DataEntity where
  /-- The fields. -/
  fields : Catalog DataField
  /-- The arrays. -/
  arrays : Catalog DataArray
  /-- The data entities that this one refers to. -/
  requiredEntities : Catalog Child
  /-- The variables. -/
  vars : Catalog Child
  deriving DecidableEq

/-- The body of a metadata operation. -/
structure Operation where
  /-- The fields, nested to any depth. -/
  fields : FieldForest
  /-- Every level is in key order. -/
  ordered : fields.Ordered
  deriving DecidableEq

/-- **The body of an entity of a kind.** -/
abbrev Body : Kind → Type
  | .actionGroup => ActionGroup
  | .test => Test
  | .page => Page
  | .pageSection => PageSection
  | .data => DataEntity
  | .metadata => Operation

namespace Body

/-- Equality of bodies, positions of array items apart. -/
def Same : (k : Kind) → Body k → Body k → Prop
  | .actionGroup, a, b => a = b
  | .test, a, b => a = b
  | .page, a, b => a = b
  | .pageSection, a, b => a = b
  | .data, a, b =>
    a.fields = b.fields
      ∧ a.arrays.items.map DataArray.contents = b.arrays.items.map DataArray.contents
      ∧ a.requiredEntities = b.requiredEntities ∧ a.vars = b.vars
  | .metadata, a, b => a = b

instance : (k : Kind) → (a b : Body k) → Decidable (Same k a b)
  | .actionGroup, a, b => decEq (α := ActionGroup) a b
  | .test, a, b => decEq (α := Test) a b
  | .page, a, b => decEq (α := Page) a b
  | .pageSection, a, b => decEq (α := PageSection) a b
  | .data, a, b =>
    inferInstanceAs (Decidable (a.fields = b.fields
      ∧ a.arrays.items.map DataArray.contents = b.arrays.items.map DataArray.contents
      ∧ a.requiredEntities = b.requiredEntities ∧ a.vars = b.vars))
  | .metadata, a, b => decEq (α := Operation) a b

end Body

/-! ## Entities -/

/-- **An entity of a kind.** -/
structure Entity (k : Kind) where
  /-- The name, under which both releases are searched for the entity. -/
  name : String
  /-- The attributes. -/
  attributes : Attributes
  /-- Everything else. -/
  body : Body k

instance (k : Kind) : Keyed (Entity k) := ⟨Entity.name⟩

/-- **Equality of entities**, positions of array items apart. -/
def Entity.Same {k : Kind} (a b : Entity k) : Prop :=
  a.name = b.name ∧ a.attributes = b.attributes ∧ Body.Same k a.body b.body

instance {k : Kind} (a b : Entity k) : Decidable (a.Same b) :=
  inferInstanceAs (Decidable (_ ∧ _ ∧ _))

end ReleaseDiff
