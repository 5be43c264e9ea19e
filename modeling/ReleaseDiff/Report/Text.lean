import ReleaseDiff.Report.Basic

set_option autoImplicit false

/-!
# Reports as text

## Main definitions

* `ReleaseDiff.Report.text` — a heading, a line for every record and every failure, and a closing
  line.
-/

namespace ReleaseDiff

/-- The heading of a report. -/
def Verdict.heading (v : Verdict) : String := "Mftf (" ++ v.label ++ ")"

/-- The closing line of a report. -/
def Verdict.closingLine : Verdict → String
  | some .major => "Major change is detected."
  | some .minor => "Minor change is detected."
  | some .patch => "Patch change is detected."
  | none => "No changes detected."

/-- The line of a record. -/
def Record.line (r : Record) : String :=
  r.kind.label ++ "/" ++ r.path ++ " | " ++ r.message ++ " | " ++ r.code

/-- The line of a failure. -/
def Failure.line (f : Failure) : String :=
  f.kind.label ++ " (" ++ f.side.label ++ ") not compared | " ++ f.message ++ " | " ++ f.code

namespace Report

/-- The lines of a report: heading, records, failures behind an empty line if there are any, and the
closing line behind an empty line. -/
def lines (r : Report) : List String :=
  r.severity.heading :: r.records.map Record.line
    ++ (if r.failures.isEmpty then [] else "" :: r.failures.map Failure.line)
    ++ ["", r.severity.closingLine]

/-- **A report as text**, every line closed by a line feed. -/
def text (r : Report) : String :=
  String.join (r.lines.map (· ++ "\n"))

end Report

end ReleaseDiff
