import ReleaseDiff.Log.Event

set_option autoImplicit false

/-!
# Captured events

A capture keeps the events of a log in the order in which they came, so that they can be searched.

## Main definitions

* `ReleaseDiff.Log.Capture` — captured events.
* `ReleaseDiff.Log.Capture.find` — the events of one phase of an operation.
* `ReleaseDiff.Log.Capture.require` — asserts that there is such an event.
* `ReleaseDiff.Log.Profile` — for whom a log is written.
-/

namespace ReleaseDiff.Log

/-- **Captured events**, the oldest first. -/
abbrev Capture := List Event

namespace Capture

/-- Keeps one more event. -/
def add (c : Capture) (e : Event) : Capture := c ++ [e]

/-- Whether an event is of a phase, told by its name, of an operation. -/
def isOf (operation phase : String) (e : Event) : Bool :=
  e.operation == operation && e.phase.name == phase

/-- **The events of one phase of an operation.** -/
def find (c : Capture) (operation phase : String) : List Event :=
  c.filter (isOf operation phase)

/-- The number of events of one phase of an operation. -/
def count (c : Capture) (operation phase : String) : Nat := c.countP (isOf operation phase)

/-- The wording of an event that is missing. -/
def missingMessage (operation phase : String) : String :=
  "no '" ++ phase ++ "' event captured for op '" ++ operation ++ "'"

/-- **Asserts that there is an event** of a phase of an operation. -/
def require (c : Capture) (operation phase : String) : Except String Unit :=
  if (c.find operation phase).isEmpty then .error (missingMessage operation phase) else .ok ()

end Capture

/-- **For whom a log is written.** -/
inductive Profile where
  /-- For a developer. -/
  | development
  /-- For a machine. -/
  | production
  /-- For nobody; events are captured instead. -/
  | test
  deriving DecidableEq, Repr

namespace Profile

/-- All profiles. -/
def all : List Profile := [development, production, test]

/-- The name of a profile. -/
def name : Profile → String
  | development => "Development"
  | production => "Production"
  | test => "Test"

/-- Which events a profile lets through, unless the environment says otherwise. -/
def defaultFilter : Profile → String
  | development => "mftf_semver_core=debug"
  | production => "mftf_semver_core=info"
  | test => "off"

end Profile

end ReleaseDiff.Log
