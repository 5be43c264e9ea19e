import ReleaseDiff.Json.Printer
import ReleaseDiff.Json.Reader
import ReleaseDiff.Report.Basic

set_option autoImplicit false

/-!
# Reports as JSON

## Main definitions

* `ReleaseDiff.Report.toJson` — a report as a JSON value, its fields in a fixed order.
* `ReleaseDiff.Report.jsonText` — the same as text.
* `ReleaseDiff.Report.ofJson?` — the report that a JSON value stands for.
-/

namespace ReleaseDiff

/-- A record as a JSON value. -/
def Record.toJson (r : Record) : Json :=
  .object [("kind", .string r.kind.label), ("path", .string r.path), ("code", .string r.code),
    ("severity", .string r.severity.label), ("message", .string r.message)]

/-- A failure as a JSON value. -/
def Failure.toJson (f : Failure) : Json :=
  .object [("kind", .string f.kind.label), ("side", .string f.side.label),
    ("code", .string f.code), ("message", .string f.message)]

/-- The text of a field. -/
def Json.textField? (j : Json) (name : String) : Option String := (j.field? name).bind Json.text?

/-- The record that a JSON value stands for. -/
def Record.ofJson? (j : Json) : Option Record := do
  let kind ← Kind.ofLabel? (← j.textField? "kind")
  let path ← j.textField? "path"
  let code ← j.textField? "code"
  let severity ← Severity.ofLabel? (← j.textField? "severity")
  let message ← j.textField? "message"
  return { kind, path, code, severity, message }

/-- The failure that a JSON value stands for. -/
def Failure.ofJson? (j : Json) : Option Failure := do
  let kind ← Kind.ofLabel? (← j.textField? "kind")
  let side ← Side.ofLabel? (← j.textField? "side")
  let code ← j.textField? "code"
  let message ← j.textField? "message"
  return { kind, side, code, message }

/-- The verdict of a label. -/
def Verdict.ofLabel? (word : String) : Option Verdict := Verdict.all.find? fun v => v.label == word

namespace Report

/-- **A report as a JSON value.** -/
def toJson (r : Report) : Json :=
  .object [("records", .array (r.records.map Record.toJson)),
    ("severity", .string r.severity.label),
    ("failures", .array (r.failures.map Failure.toJson))]

/-- **A report as JSON text.** -/
def jsonText (r : Report) : String := r.toJson.pretty

/-- **The report that a JSON value stands for.** -/
def ofJson? (j : Json) : Option Report := do
  let records ← (← (← j.field? "records").items?).mapM Record.ofJson?
  let severity ← Verdict.ofLabel? (← j.textField? "severity")
  let failures ← (← (← j.field? "failures").items?).mapM Failure.ofJson?
  return { records, severity, failures }

/-- The report that a JSON text stands for. -/
def ofJsonText? (text : String) : Option Report := (Json.parse? text).bind ofJson?

end Report

end ReleaseDiff
