import ReleaseDiff.Fault

set_option autoImplicit false

/-!
# Log events

Every operation logs its start and its end, or the error that ended it. All events of one run carry
the identity of the run.

## Main definitions

* `ReleaseDiff.RunId` — the identity of a run.
* `ReleaseDiff.Log.Event` — one event.
* `ReleaseDiff.Log.started`, `ReleaseDiff.Log.ended`, `ReleaseDiff.Log.failed` — the three events
  of an operation.
-/

namespace ReleaseDiff

/-- **The identity of a run.** -/
structure RunId where
  /-- Its text. -/
  text : String
  deriving DecidableEq, Repr

namespace Log

/-! ## Names of fields and events -/

namespace Field

/-- The part of the program that logs. -/
def component : String := "component"
/-- The operation. -/
def operation : String := "op"
/-- The phase of the operation. -/
def event : String := "event"
/-- The duration in milliseconds. -/
def duration : String := "duration_ms"
/-- The identity of the run. -/
def runId : String := "run_id"
/-- The kind of artifact. -/
def kind : String := "kind"
/-- The entity. -/
def entity : String := "entity"
/-- The number of records. -/
def recordCount : String := "record_count"
/-- The verdict. -/
def severity : String := "severity"
/-- The kind of a fault. -/
def faultKind : String := "err.kind"
/-- The code of a fault. -/
def faultCode : String := "err.code"
/-- The release concerned. -/
def side : String := "side"
/-- The number of kinds. -/
def kinds : String := "kinds"
/-- Whether kinds are compared at the same time. -/
def parallel : String := "parallel"

end Field

/-- The phase of an operation. -/
inductive Phase where
  /-- It starts. -/
  | start
  /-- It ends. -/
  | finish
  /-- An error ends it. -/
  | failure
  deriving DecidableEq, Repr

/-- The name of a phase. -/
def Phase.name : Phase → String
  | .start => "start"
  | .finish => "end"
  | .failure => "end_error"

/-- The names that every reader of a log may rely on: those of the fields, then those of the
phases. -/
def schema : List String :=
  [Field.component, Field.operation, Field.event, Field.duration, Field.runId, Field.kind,
    Field.entity, Field.recordCount, Field.severity, Field.faultKind, Field.faultCode,
    Phase.start.name, Phase.finish.name, Phase.failure.name]

/-- The level of an event. -/
inductive Level where
  /-- All is well. -/
  | info
  /-- An operation failed. -/
  | error
  deriving DecidableEq, Repr

/-- The word for a level. -/
def Level.label : Level → String
  | .info => "INFO"
  | .error => "ERROR"

/-- **A log event.** -/
structure Event where
  /-- The level. -/
  level : Level
  /-- The part of the program that logs. -/
  component : String
  /-- The operation. -/
  operation : String
  /-- The phase of the operation. -/
  phase : Phase
  /-- The run that the event belongs to. -/
  run : Option RunId
  /-- All other fields, under their names. -/
  fields : List (String × String)
  deriving DecidableEq, Repr

/-- Where and in which run an operation logs. -/
structure Source where
  /-- The part of the program that logs. -/
  component : String
  /-- The run. -/
  run : Option RunId := none

/-- The value of a field. -/
def Event.field? (e : Event) (name : String) : Option String :=
  (e.fields.find? fun f => f.1 == name).map Prod.snd

/-- The event of an operation that starts. -/
def started (source : Source) (operation : String) (fields : List (String × String)) : Event :=
  ⟨.info, source.component, operation, .start, source.run, fields⟩

/-- The event of an operation that ends after a number of milliseconds. -/
def ended (source : Source) (operation : String) (duration : Nat)
    (fields : List (String × String)) : Event :=
  ⟨.info, source.component, operation, .finish, source.run,
    (Field.duration, toString duration) :: fields⟩

/-- The event of an operation that a fault ends after a number of milliseconds. -/
def failed (source : Source) (operation : String) (fault : Fault) (duration : Nat)
    (fields : List (String × String)) : Event :=
  ⟨.error, source.component, operation, .failure, source.run,
    (Field.duration, toString duration) :: (Field.faultKind, fault.kind.name)
      :: (Field.faultCode, fault.code) :: fields⟩

end Log

end ReleaseDiff
