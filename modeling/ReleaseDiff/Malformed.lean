import ReleaseDiff.Catalog.Basic
import ReleaseDiff.Kind

set_option autoImplicit false

/-!
# Malformed artifacts

Why an entity, or a whole kind of a tree, cannot be built.

## Main definitions

* `ReleaseDiff.Malformed` — the causes.
* `ReleaseDiff.Malformed.kind` — the kind that cannot be built.
* `ReleaseDiff.Malformed.message` — the wording.
* `ReleaseDiff.Place` — where in an entity a declared list stands.
-/

namespace ReleaseDiff

/-- **Why an artifact cannot be built.** -/
inductive Malformed where
  /-- Two items of one collection share a key. -/
  | duplicateKey (kind : Kind) (entity collection key : String)
  /-- Two entities of one kind share a name. -/
  | duplicateEntity (kind : Kind) (name : String)
  /-- A name or a key is empty. -/
  | missingIdentifier (kind : Kind) (entity collection : String)
  deriving DecidableEq, Repr

namespace Malformed

/-- The kind that cannot be built. -/
def kind : Malformed → Kind
  | duplicateKey k _ _ _ => k
  | duplicateEntity k _ => k
  | missingIdentifier k _ _ => k

/-- The entity that the defect was found in. -/
def entity : Malformed → String
  | duplicateKey _ e _ _ => e
  | duplicateEntity _ n => n
  | missingIdentifier _ e _ => e

/-- The wording of the defect. -/
def message : Malformed → String
  | duplicateKey k e c key =>
    k.label ++ " '" ++ e ++ "' has duplicate key '" ++ key ++ "' in " ++ c
  | duplicateEntity k n => "duplicate " ++ k.label ++ " entity '" ++ n ++ "'"
  | missingIdentifier k e c =>
    k.label ++ " '" ++ e ++ "' is missing an identifier in " ++ c

end Malformed

/-- **A place in an entity**: the collection that a declared list fills. -/
structure Place where
  /-- The kind of the entity. -/
  kind : Kind
  /-- The name of the entity. -/
  entity : String
  /-- The name of the collection. -/
  collection : String

namespace Place

/-- The defect of a declared list, told with its place. -/
def malformed (place : Place) : KeyDefect → Malformed
  | .empty => .missingIdentifier place.kind place.entity place.collection
  | .repeated key => .duplicateKey place.kind place.entity place.collection key

/-- Tells a defect with its place, and passes a catalog on. -/
def blame {α : Type} (place : Place) : Except KeyDefect α → Except Malformed α
  | .ok a => .ok a
  | .error defect => .error (place.malformed defect)

end Place

end ReleaseDiff
