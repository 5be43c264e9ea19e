import ReleaseDiff.Diff.Child
import ReleaseDiff.FieldForest

set_option autoImplicit false

/-!
# Comparing the fields of a metadata operation

Fields are compared level by level. A field that appears or disappears is one change; below a field
that both releases have, its attributes and the level below it are compared.

## Main definitions

* `ReleaseDiff.fieldChanges` — the changes of a forest of fields.
-/

namespace ReleaseDiff

/-- The fields that appear or disappear on one level. -/
def fieldPresenceChanges (path : Path) (before after : FieldForest) : List (Change .metadata) :=
  presenceChanges (k := .metadata) .childRemoved .childAdded path before.nodes after.nodes

/-- The changes below the fields that both releases have. -/
def sharedFieldChanges : Path → FieldForest → FieldForest → List (Change .metadata)
  | _, .nil, _ => []
  | path, .cons key attributes children rest, after =>
    (match after.find? key with
      | none => []
      | some node =>
        attributeChanges (k := .metadata) (fun _ => .childChanged) (path.child key) (fun _ => key)
            attributes node.attributes
          ++ fieldPresenceChanges (path.child key) children node.children
          ++ sharedFieldChanges (path.child key) children node.children)
      ++ sharedFieldChanges path rest after

/-- **The changes of a forest of fields**: what appears or disappears on the top level, then what
differs below the fields that both releases have. -/
def fieldChanges (path : Path) (before after : FieldForest) : List (Change .metadata) :=
  fieldPresenceChanges path before after ++ sharedFieldChanges path before after

end ReleaseDiff
