import ReleaseDiff.Catalog.Matching
import ReleaseDiff.Entity.Basic

set_option autoImplicit false

/-!
# Collections of an entity by name

Every collection of an entity can be addressed by a list of names: its own name, and for what is
nested inside it the keys on the way.

## Main definitions

* `ReleaseDiff.Body.collectionKeys` — the keys of a collection of a body.
* `ReleaseDiff.Entity.collectionKeys` — the keys of a collection of an entity.
-/

namespace ReleaseDiff

/-- **The keys of a collection of a body**, in order. A collection that is not there has none. -/
def Body.collectionKeys : (k : Kind) → Body k → List String → List String
  | .actionGroup, b, ["Arguments"] => b.arguments.keys
  | .actionGroup, b, ["Actions"] => b.actions.keys
  | .test, b, ["Before"] => b.before.keys
  | .test, b, ["Actions"] => b.actions.keys
  | .test, b, ["After"] => b.after.keys
  | .test, b, ["RemoveActions"] => b.removeActions.keys
  | .page, b, ["Sections"] => b.sections.keys
  | .pageSection, b, ["Elements"] => b.elements.keys
  | .data, b, ["Fields"] => b.fields.keys
  | .data, b, ["Arrays"] => b.arrays.keys
  | .data, b, ["Arrays", array] =>
    match b.arrays.get? array with
    | some a => a.items.keys
    | none => []
  | .data, b, ["RequiredEntities"] => b.requiredEntities.keys
  | .data, b, ["Vars"] => b.vars.keys
  | .metadata, b, "Fields" :: chain => (b.fields.levelAt chain).nodes.map key
  | _, _, _ => []

/-- **The keys of a collection of an entity**, in order. -/
def Entity.collectionKeys {k : Kind} (e : Entity k) (collection : List String) : List String :=
  Body.collectionKeys k e.body collection

end ReleaseDiff
