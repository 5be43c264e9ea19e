import ReleaseDiff.Text.Choice

set_option autoImplicit false

/-!
# Severities

How much a single change asks of the next version number, and the verdict over a whole comparison.

## Main definitions

* `ReleaseDiff.Severity` — patch, minor or major.
* `ReleaseDiff.Verdict` — the worst severity found, if anything was found.
* `ReleaseDiff.Verdict.worst` — the verdict over a list of severities.
-/

namespace ReleaseDiff

/-- **The severity of one change.** -/
inductive Severity where
  /-- An internal tweak. -/
  | patch
  /-- An addition that breaks nothing. -/
  | minor
  /-- A break. -/
  | major
  deriving DecidableEq, Repr, Inhabited

namespace Severity

/-- All severities, mildest first. -/
def all : List Severity := [patch, minor, major]

/-- The place of a severity, mildest first. -/
def rank : Severity → Nat
  | patch => 0
  | minor => 1
  | major => 2

instance : LE Severity := ⟨fun a b => a.rank ≤ b.rank⟩

instance : DecidableLE Severity := fun a b => inferInstanceAs (Decidable (a.rank ≤ b.rank))

/-- The word for a severity in reports. -/
def label : Severity → String
  | patch => "PATCH"
  | minor => "MINOR"
  | major => "MAJOR"

/-- The name of a severity in prose. -/
def name : Severity → String
  | patch => "Patch"
  | minor => "Minor"
  | major => "Major"

/-- The severity of a label. -/
def ofLabel? (word : String) : Option Severity :=
  all.find? fun s => s.label == word

/-- The severity of a label, or what is wrong with the label. -/
def read (word : String) : Except Text.UnknownWord Severity := Text.choose all label word

/-- The severity of a name. -/
def ofName? (word : String) : Option Severity :=
  all.find? fun s => s.name == word

/-- The graver of two severities. -/
def max (a b : Severity) : Severity := if a ≤ b then b else a

end Severity

/-- **A verdict**: the worst severity of a comparison, or nothing where nothing changed. -/
abbrev Verdict := Option Severity

namespace Verdict

/-- All verdicts, mildest first. -/
def all : List Verdict := none :: Severity.all.map some

/-- The place of a verdict, mildest first. -/
def rank : Verdict → Nat
  | none => 0
  | some s => s.rank + 1

/-- The word for a verdict in reports. -/
def label : Verdict → String
  | none => "NONE"
  | some s => s.label

/-- The name of a verdict in prose. -/
def name : Verdict → String
  | none => "None"
  | some s => s.name

/-- The verdict of a name. -/
def ofName? (word : String) : Option Verdict :=
  all.find? fun v => v.name == word

/-- **The worst of a list of severities**; nothing for the empty list. -/
def worst : List Severity → Verdict
  | [] => none
  | s :: rest =>
    match worst rest with
    | none => some s
    | some t => some (s.max t)

end Verdict

end ReleaseDiff
