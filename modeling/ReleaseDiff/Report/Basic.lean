import ReleaseDiff.Change
import ReleaseDiff.Fault

set_option autoImplicit false

/-!
# Reports

A report holds all records of a comparison in order, the kinds that could not be compared, and the
verdict.

## Main definitions

* `ReleaseDiff.stableSort` — puts a list into an order in which items may tie.
* `ReleaseDiff.Side` — one of the two releases.
* `ReleaseDiff.Failure` — a kind that could not be compared.
* `ReleaseDiff.Report` — records, verdict and failures.
* `ReleaseDiff.Report.assemble` — the report of records and failures in any order.
* `ReleaseDiff.Report.bySeverity` — the records in groups, the gravest first.
-/

namespace ReleaseDiff

/-- **Puts a list into an order.** Items of which neither is before the other stay as they were. -/
def stableSort {α : Type} (before : α → α → Bool) (items : List α) : List α :=
  items.mergeSort fun x y => !before y x

@[simp] theorem stableSort_nil {α : Type} (before : α → α → Bool) : stableSort before [] = [] :=
  List.mergeSort_nil

/-- **One of the two releases.** -/
inductive Side where
  /-- The earlier release. -/
  | before
  /-- The later release. -/
  | after
  deriving DecidableEq, Repr

namespace Side

/-- Both sides, the earlier one first. -/
def all : List Side := [before, after]

/-- The place of a side. -/
def rank : Side → Nat
  | before => 0
  | after => 1

/-- The word for a side in reports. -/
def label : Side → String
  | before => "before"
  | after => "after"

/-- The name of a side in prose. -/
def name : Side → String
  | before => "Before"
  | after => "After"

/-- The side of a label. -/
def ofLabel? (word : String) : Option Side := all.find? fun s => s.label == word

/-- The side of a name. -/
def ofName? (word : String) : Option Side := all.find? fun s => s.name == word

end Side

/-- **A kind that could not be compared**, since one release could not be built. -/
structure Failure where
  /-- The kind. -/
  kind : Kind
  /-- The release that could not be built. -/
  side : Side
  /-- The stable code of the defect. -/
  code : String
  /-- The wording of the defect. -/
  message : String
  deriving DecidableEq, Repr

namespace Failure

/-- The failure of a defect in a release. -/
def of (side : Side) (m : Malformed) : Failure :=
  ⟨m.kind, side, m.code, m.message⟩

/-- The order of failures in a report: by kind, then by side. -/
def before (f g : Failure) : Bool :=
  if f.kind.rank ≠ g.kind.rank then f.kind.rank < g.kind.rank else f.side.rank < g.side.rank

end Failure

/-- **A report.** -/
structure Report where
  /-- The records, in report order. -/
  records : List Record
  /-- The worst severity of a record. -/
  severity : Verdict
  /-- The kinds that could not be compared. -/
  failures : List Failure
  deriving DecidableEq, Repr

namespace Report

/-- Puts records into report order; records that agree in kind, path and code stay as they were. -/
def sortRecords (records : List Record) : List Record :=
  stableSort Record.before records

/-- Puts failures into report order; failures that agree in kind and side stay as they were. -/
def sortFailures (failures : List Failure) : List Failure :=
  stableSort Failure.before failures

/-- **The report of records and failures** in any order. -/
def assemble (records : List Record) (failures : List Failure) : Report where
  records := sortRecords records
  severity := Verdict.worst (records.map Record.severity)
  failures := sortFailures failures

variable (r : Report)

/-- Whether every kind was compared and nothing changed. -/
def isUnchanged : Bool := r.records.isEmpty && r.failures.isEmpty

/-- The records of a severity, in report order. -/
def ofSeverity (s : Severity) : List Record := r.records.filter fun x => x.severity = s

/-- **The records in groups of one severity**, the gravest first; no group is empty. -/
def bySeverity : List (Severity × List Record) :=
  (Severity.all.reverse.map fun s => (s, r.ofSeverity s)).filter fun g => !g.2.isEmpty

/-- The number of records of a severity. -/
def count (s : Severity) : Nat := (r.ofSeverity s).length

/-- The records of a kind, in report order. -/
def recordsFor (k : Kind) : List Record := r.records.filter fun x => x.kind = k

end Report

end ReleaseDiff
