import ReleaseDiff.Attributes

set_option autoImplicit false

/-!
# Children and steps

The two shapes of item that most collections hold: a child is a key with attributes, a step has
besides an action type.

## Main definitions

* `ReleaseDiff.Child` — an argument, section reference, element, required entity or variable.
* `ReleaseDiff.Step` — one action.
* `ReleaseDiff.Step.invokesActionGroup` — whether a step calls an action group.
-/

namespace ReleaseDiff

/-- **A child**: a key with attributes. -/
structure Child where
  /-- The key. -/
  key : String
  /-- The attributes. -/
  attributes : Attributes
  deriving DecidableEq

instance : Keyed Child := ⟨Child.key⟩

/-- **A step** of an action group or of a test. -/
structure Step where
  /-- The key. -/
  key : String
  /-- What the step does. -/
  actionType : String
  /-- The attributes. -/
  attributes : Attributes
  deriving DecidableEq

instance : Keyed Step := ⟨Step.key⟩

namespace Step

/-- The action type of a step that calls an action group. -/
def actionGroupType : String := "actionGroup"

/-- The attribute that names the called action group. -/
def refAttribute : String := "ref"

/-- Whether a step calls an action group. -/
def invokesActionGroup (s : Step) : Bool := s.actionType == actionGroupType

/-- The action group that a step calls. -/
def actionGroupRef? (s : Step) : Option String :=
  if s.invokesActionGroup then s.attributes.value? refAttribute else none

end Step

end ReleaseDiff
