import ReleaseDiff.Config.Basic
import ReleaseDiff.Diff.Entity
import ReleaseDiff.Log.Event
import ReleaseDiff.Report.Basic
import ReleaseDiff.Tree

set_option autoImplicit false

/-!
# Comparing two trees

Every enabled kind is compared on its own. A kind that one of the trees could not build gives a
failure for every such tree and no record; the other kinds are compared all the same.

## Main definitions

* `ReleaseDiff.KindOutcome` — what comparing one kind gives.
* `ReleaseDiff.compareKind` — compares one kind.
* `ReleaseDiff.classify` — compares two trees.
* `ReleaseDiff.Log.Moment` — the moments of a comparison at which the clock is read.
* `ReleaseDiff.Log.ofRun` — the events that a comparison logs.
-/

namespace ReleaseDiff

/-- **What comparing one kind gives**: records, or the failures that stand in the way. -/
abbrev KindOutcome := Except (List Failure) (List Record)

namespace KindOutcome

/-- The records of an outcome. -/
def records : KindOutcome → List Record
  | .ok rs => rs
  | .error _ => []

/-- The failures of an outcome. -/
def failures : KindOutcome → List Failure
  | .ok _ => []
  | .error fs => fs

end KindOutcome

/-- The defects of a kind in two trees, each with its side, the earlier side first. -/
def kindDefects (k : Kind) (before after : Tree) : List (Side × Defect k) :=
  ((before k).defect?.toList.map (Side.before, ·)) ++ ((after k).defect?.toList.map (Side.after, ·))

/-- **Compares one kind** of two trees. -/
def compareKind (k : Kind) (before after : Tree) : KindOutcome :=
  match before k, after k with
  | .ok old, .ok new => .ok (entityRecords old new)
  | _, _ => .error ((kindDefects k before after).map fun d => Failure.of d.1 d.2.1)

/-- The report of what comparing each kind gave, whichever was compared first. -/
def Report.ofOutcomes (outcomes : List KindOutcome) : Report :=
  .assemble (outcomes.flatMap KindOutcome.records) (outcomes.flatMap KindOutcome.failures)

/-- **Compares two trees.** -/
def classify (config : Config) (before after : Tree) : Report :=
  .ofOutcomes (config.enabledKinds.map fun k => compareKind k before after)

namespace Log

/-- The part of the program that logs comparisons. -/
def classifier : String := "mftf_semver_core::classifier"

/-- **A moment of a comparison** at which it is told how long an operation took. -/
inductive Moment where
  /-- A kind was compared. -/
  | kindCompared (k : Kind)
  /-- A release was found to have failed to build a kind. -/
  | kindFailed (k : Kind) (side : Side)
  /-- All kinds were compared. -/
  | compared

section OfKind

variable (source : Source) (clock : Moment → Nat) (k : Kind)

/-- The event that the comparison of a kind starts. -/
def kindStarted : Event := started source "diff_kind" [(Field.kind, k.label)]

/-- The event that a kind was compared and gave so many records. -/
def kindEnded (count : Nat) : Event :=
  ended source "diff_kind" (clock (.kindCompared k))
    [(Field.kind, k.label), (Field.recordCount, toString count)]

/-- The event that a release failed to build a kind. -/
def kindFailed (d : Side × Defect k) : Event :=
  failed source "diff_kind" d.2.1.toFault (clock (.kindFailed k d.1))
    [(Field.kind, k.label), (Field.side, d.1.label)]

/-- The events of comparing one kind. Durations are told by the clock. -/
def ofKind (before after : Tree) : List Event :=
  kindStarted source k
    :: match compareKind k before after with
      | .ok records => [kindEnded source clock k records.length]
      | .error _ => (kindDefects k before after).map (kindFailed source clock k)

end OfKind

/-- The event that a comparison starts. -/
def runStarted (source : Source) (config : Config) : Event :=
  started source "classify"
    [(Field.kinds, toString config.enabledKinds.length),
      (Field.parallel, toString config.effectiveParallel)]

/-- The event that a comparison ends with a report. -/
def runEnded (source : Source) (clock : Moment → Nat) (report : Report) : Event :=
  ended source "classify" (clock .compared)
    [(Field.recordCount, toString report.records.length),
      (Field.severity, report.severity.label)]

/-- **The events that a comparison logs**, kind by kind. -/
def ofRun (run : RunId) (clock : Moment → Nat) (config : Config) (before after : Tree) :
    List Event :=
  let source : Source := ⟨classifier, some run⟩
  runStarted source config
    :: config.enabledKinds.flatMap (fun k => ofKind source clock k before after)
    ++ [runEnded source clock (classify config before after)]

end Log

end ReleaseDiff
