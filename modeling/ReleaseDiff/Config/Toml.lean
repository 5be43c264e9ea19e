import ReleaseDiff.Config.Basic
import ReleaseDiff.Decimal.Shortest
import ReleaseDiff.Fault
import ReleaseDiff.Text.Quoted
import ReleaseDiff.Toml.Location
import ReleaseDiff.Toml.Reader

set_option autoImplicit false

/-!
# Reading a configuration

A configuration is a TOML document with at most the two keys `parallel` and `kinds`. The first key
or value that does not fit is reported with its line.

## Main definitions

* `ReleaseDiff.Config.Misfit` — why a document is no configuration.
* `ReleaseDiff.Config.ofEntries` — the configuration of a document.
* `ReleaseDiff.Config.ofToml` — the configuration of a text.
-/

namespace ReleaseDiff.Config

open Toml (Item Entries Key Span FloatValue)

/-- **Why a document is no configuration.** -/
inductive Misfit where
  /-- A key that a configuration does not have. -/
  | unknownKey (key : String)
  /-- A text that is not the name of a kind. -/
  | unknownKind (name : Text.UnknownWord)
  /-- A value of another type than the expected one. -/
  | wrongType (found expected : String)
  /-- An item of the list of kinds that cannot be a name. -/
  | notAName
  /-- An empty table in place of a name. -/
  | noName
  /-- A table of several names in place of one. -/
  | severalNames
  /-- A name with a value that is not empty. -/
  | valueNotEmpty (expected : String)
  /-- A name with a value that can hold nothing. -/
  | valueNotTable (found : String)
  deriving DecidableEq, Repr

namespace Misfit

/-- The wording of a misfit. -/
def message : Misfit → String
  | unknownKey k =>
    "unknown field " ++ Text.marked k ++ ", expected " ++ Text.marked "parallel" ++ " or "
      ++ Text.marked "kinds"
  | unknownKind name => name.message
  | wrongType found expected => "invalid type: " ++ found ++ ", expected " ++ expected
  | notAName => "wanted string or table"
  | noName => "wanted exactly 1 element, found 0 elements"
  | severalNames => "wanted exactly 1 element, more than 1 element"
  | valueNotEmpty expected => "expected empty " ++ expected
  | valueNotTable found => "expected table, found " ++ found

end Misfit

/-- A misfit at a place, or a value. -/
abbrev Fitted (α : Type) := Except (Span × Misfit) α

/-- A number with a fraction or an exponent, as messages show it. -/
def floatText : FloatValue → String
  | .notANumber => "NaN"
  | .infinity negative => (if negative then "-" else "") ++ "inf"
  | .decimal negative d =>
    (if negative then "-" else "")
      ++ (match d.toBinary with
          | .infinite => "inf"
          | .finite m q => (Binary.shortest m q).positional)

/-- A value, as messages show it. -/
def describe : Item → String
  | .string _ s => "string " ++ Text.quoted s
  | .integer _ n => "integer " ++ Text.marked (toString n)
  | .float _ x => "floating point " ++ Text.marked (floatText x)
  | .boolean _ b => "boolean " ++ Text.marked (toString b)
  | .array _ _ | .tables _ _ => "sequence"
  | .datetime _ | .table _ _ => "map"

/-- The type of a value, as messages name it. -/
def typeName : Item → String
  | .string _ _ => "string"
  | .integer _ _ => "integer"
  | .float _ _ => "float"
  | .boolean _ _ => "boolean"
  | .datetime _ => "datetime"
  | .array _ _ => "array"
  | .tables _ _ => "array of tables"
  | .table (.braces _) _ => "inline table"
  | .table _ _ => "table"

/-- The kind of a name. -/
def kindOfName (span : Span) (name : String) : Fitted Kind :=
  match Kind.read name with
  | .ok k => .ok k
  | .error unknown => .error (span, .unknownKind unknown)

/-- Refuses a value that is not empty. An array of values counts as a table here. -/
def requireEmpty (holder : Span) (item : Item) : Fitted Unit :=
  let span := item.spanWithin holder
  match item with
  | .array _ [] | .tables _ [] | .table _ [] => .ok ()
  | .array _ _ | .table _ _ => .error (span, .valueNotEmpty "table")
  | .tables _ _ => .error (span, .valueNotEmpty "array")
  | _ => .error (span, .valueNotTable (typeName item))

/-- The kind of an item of the list: a name, or a table with the name and an empty value. -/
def kindOfItem (holder : Span) (item : Item) : Fitted Kind :=
  let span := item.spanWithin holder
  match item with
  | .string _ name => kindOfName span name
  | .table _ [] => .error (span, .noName)
  | .table _ [(k, value)] => do
    let kind ← kindOfName k.span k.name
    requireEmpty span value
    return kind
  | .table _ _ => .error (span, .severalNames)
  | _ => .error (span, .notAName)

/-- Sets one key of a configuration. A value that is not written as one is looked for at its
key. -/
def set (c : Config) (entry : Key × Item) : Fitted Config :=
  let span := entry.2.spanWithin entry.1.span
  if entry.1.name = "parallel" then
    match entry.2 with
    | .boolean _ b => .ok { c with parallel := some b }
    | item => .error (span, .wrongType (describe item) "a boolean")
  else if entry.1.name = "kinds" then
    match entry.2 with
    | .array _ items | .tables _ items => do
      return { c with kinds := ← items.mapM (kindOfItem span) }
    | item => .error (span, .wrongType (describe item) "a sequence")
  else .error (entry.1.span, .unknownKey entry.1.name)

/-- **The configuration of a document**, its entries taken in turn. -/
def ofEntries (entries : Entries) : Fitted Config := entries.foldlM set {}

/-- The fault of a text that is no configuration. -/
def loadFault (message : String) : Fault where
  kind := .invalidConfig
  operation := some "load_config"
  message := message

/-- **The configuration of a text.** A document that is no configuration is told with its first
misfit. A text that is no document is told by the reader of the format in words of its own, and
those are not modelled: here the first words of its message stand for all of it. -/
def ofToml (text : String) : Except Fault Config :=
  match Toml.parse? text with
  | none => .error (loadFault "TOML parse error\n")
  | some entries =>
    match ofEntries entries with
    | .ok c => .ok c
    | .error (span, misfit) =>
      .error (loadFault (span.pointer text.toList ++ misfit.message ++ "\n"))

end ReleaseDiff.Config
