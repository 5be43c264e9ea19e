import ReleaseDiff.Kind

set_option autoImplicit false

/-!
# Configuration of a comparison

## Main definitions

* `ReleaseDiff.Config` — which kinds are compared, and whether at the same time.
* `ReleaseDiff.Config.enabledKinds` — the kinds that are compared, in report order.
* `ReleaseDiff.Config.toToml` — a configuration as text.
-/

namespace ReleaseDiff

/-- **The configuration of a comparison.** -/
structure Config where
  /-- Whether kinds are compared at the same time, if that is said. -/
  parallel : Option Bool := none
  /-- The kinds to compare, as listed; none stands for all. -/
  kinds : List Kind := []
  deriving DecidableEq, Repr

namespace Config

/-- Whether kinds are compared at the same time; unless it is said, they are not. -/
def effectiveParallel (c : Config) : Bool := c.parallel.getD false

/-- **The kinds that are compared**, in report order and each once; all of them if none is
listed. -/
def enabledKinds (c : Config) : List Kind :=
  if c.kinds = [] then Kind.all else Kind.all.filter (c.kinds.contains ·)

/-- Whether nothing is set. -/
def isDefault (c : Config) : Bool := c = {}

/-- A kind in quotes. -/
def quotedKind (k : Kind) : String := "\"" ++ k.label ++ "\""

/-- **A configuration as text**: whether kinds are compared at the same time, if that is said, and
the kinds as listed. -/
def toToml (c : Config) : String :=
  (match c.parallel with
    | none => ""
    | some true => "parallel = true\n"
    | some false => "parallel = false\n")
    ++ "kinds = [" ++ ", ".intercalate (c.kinds.map quotedKind) ++ "]\n"

end Config

end ReleaseDiff
