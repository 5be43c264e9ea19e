import ReleaseDiff.Annotation
import ReleaseDiff.Catalog.Matching
import ReleaseDiff.Change

set_option autoImplicit false

/-!
# Comparing annotations

Annotations are compared name by name, in name order. A set of values is compared value by value; a
single text counts as one change however it differs.

## Main definitions

* `ReleaseDiff.SetDifference` — the values that two sets disagree on.
* `ReleaseDiff.annotationChanges` — the changes of the annotations of a test.
-/

namespace ReleaseDiff

/-- **The values that two sets disagree on**, each part in order. -/
structure SetDifference where
  /-- The values that only the later set has. -/
  added : List String
  /-- The values that only the earlier set has. -/
  removed : List String
  deriving DecidableEq, Repr

/-- The values that two sets disagree on. -/
def SetDifference.of (before after : Catalog String) : SetDifference where
  added := after.difference before
  removed := before.difference after

/-- The path of a value of an annotation: the value stands in parentheses behind the name. -/
def valuePath (path : Path) (name value : String) : Path :=
  path.child (name ++ "(" ++ value ++ ")")

/-- One change for every value that disappears, then one for every value that appears. -/
def valueChanges (path : Path) (name : String) (before after : Catalog String) :
    List (Change .test) :=
  (SetDifference.of before after).removed.map (fun v => ⟨.groupRemoved, valuePath path name v, v⟩)
    ++ (SetDifference.of before after).added.map (fun v => ⟨.groupAdded, valuePath path name v, v⟩)

/-- The changes of one annotation, given its content in both releases. -/
def contentChanges (path : Path) (name : String) :
    Option AnnotationContent → Option AnnotationContent → List (Change .test)
  | some (.values old), some (.values new) => valueChanges path name old new
  | some (.values old), none => valueChanges path name old ∅
  | none, some (.values new) => valueChanges path name ∅ new
  | some (.scalar _), none => [⟨.annotationChanged, path.child name, name⟩]
  | none, some (.scalar _) => [⟨.annotationAdded, path.child name, name⟩]
  | some old, some new =>
    if old = new then [] else [⟨.annotationChanged, path.child name, name⟩]
  | none, none => []

/-- **The changes of the annotations of a test.** -/
def annotationChanges (path : Path) (before after : Annotations) : List (Change .test) :=
  (Catalog.keysOfBoth before after).flatMap fun name =>
    contentChanges path name (before.content? name) (after.content? name)

end ReleaseDiff
