import ReleaseDiff.Catalog.Matching

set_option autoImplicit false

/-!
# Attributes

Every entity and nearly every child carries attributes: texts under names. A name may be any text,
the empty one included, and an absent attribute is not the same as an empty value.

## Main definitions

* `ReleaseDiff.Attributes` — attributes in name order.
* `ReleaseDiff.Attributes.value?` — the value under a name.
* `ReleaseDiff.ValueChange` — one attribute that two maps disagree on.
* `ReleaseDiff.Attributes.valueChanges` — all disagreements of two maps, in name order.
-/

namespace ReleaseDiff

/-- A text under a name. -/
structure Attribute where
  /-- The name. -/
  name : String
  /-- The text. -/
  value : String
  deriving DecidableEq, Repr

instance : Keyed Attribute := ⟨Attribute.name⟩

/-- **Attributes**, in name order. -/
abbrev Attributes := Catalog Attribute

/-- An attribute that two maps disagree on, with its value in each. -/
structure ValueChange where
  /-- The name of the attribute. -/
  name : String
  /-- Its value in the earlier map. -/
  before : Option String
  /-- Its value in the later map. -/
  after : Option String
  deriving DecidableEq, Repr

namespace Attributes

/-- The value under a name. -/
def value? (attributes : Attributes) (name : String) : Option String :=
  (attributes.get? name).map Attribute.value

/-- **The disagreements of two attribute maps**, in name order: an attribute that appears,
disappears or changes its value. -/
def valueChanges (before after : Attributes) : List ValueChange :=
  (Catalog.keysOfBoth before after).filterMap fun name =>
    if before.value? name = after.value? name then none
    else some ⟨name, before.value? name, after.value? name⟩

end Attributes

end ReleaseDiff
