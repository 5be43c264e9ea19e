import ReleaseDiff.Decimal.Binary

set_option autoImplicit false

/-!
# TOML documents

A document is a list of values under keys. Every key and every value that is written as one
knows the stretch of text that it was read from; a table that is only named on the way to something
else has none.

## Main definitions

* `ReleaseDiff.Toml.Span` — a stretch of a text.
* `ReleaseDiff.Toml.Key` — a key with its stretch.
* `ReleaseDiff.Toml.Item` — a value, a table or an array of tables.
-/

namespace ReleaseDiff.Toml

/-- **A stretch of a text**, told by the number of characters that remain from its start and from
its end. -/
structure Span where
  /-- The number of characters from the start of the stretch to the end of the text. -/
  fromStart : Nat
  /-- The number of characters behind the stretch. -/
  behind : Nat
  deriving DecidableEq, Repr

namespace Span

/-- The stretch between two remainders of a text. -/
def between (start rest : List Char) : Span := ⟨start.length, rest.length⟩

/-- The stretch from the start of one to the end of another. -/
def upTo (first last : Span) : Span := ⟨first.fromStart, last.behind⟩

end Span

/-- **A key** with its stretch of text. -/
structure Key where
  /-- The name. -/
  name : String
  /-- Where it stands. -/
  span : Span
  deriving DecidableEq, Repr

/-- A number with a fraction or an exponent. -/
inductive FloatValue where
  /-- A decimal, with its sign. -/
  | decimal (negative : Bool) (value : Decimal)
  /-- Infinity, with its sign. -/
  | infinity (negative : Bool)
  /-- No number. -/
  | notANumber
  deriving DecidableEq, Repr

/-- **How a table came into being**, and where it stands. -/
inductive TableForm where
  /-- Written in braces. -/
  | braces (span : Span)
  /-- Opened by a header of its own; it reaches to the end of its last value. -/
  | header (span : Span)
  /-- Named on the way to another header. -/
  | onTheWay
  /-- Named on the way of a dotted key. -/
  | dotted
  deriving DecidableEq, Repr

/-- **A value, a table or an array of tables.** -/
inductive Item where
  /-- A text. -/
  | string (span : Span) (text : String)
  /-- A whole number. -/
  | integer (span : Span) (value : Int)
  /-- A number with a fraction or an exponent. -/
  | float (span : Span) (value : FloatValue)
  /-- A truth value. -/
  | boolean (span : Span) (value : Bool)
  /-- A date, a time or both. -/
  | datetime (span : Span)
  /-- A list of values. -/
  | array (span : Span) (items : List Item)
  /-- Values under keys. -/
  | table (form : TableForm) (entries : List (Key × Item))
  /-- Tables that share a header. -/
  | tables (span : Span) (items : List Item)

/-- Where a table stands, if it is written as one. -/
def TableForm.span? : TableForm → Option Span
  | .braces s | .header s => some s
  | .onTheWay | .dotted => none

/-- Where an item stands, if it is written as one. -/
def Item.span? : Item → Option Span
  | .string s _ | .integer s _ | .float s _ | .boolean s _ | .datetime s | .array s _
  | .tables s _ => some s
  | .table form _ => form.span?

/-- Where an item is to be looked for: where it stands, or else within what holds it. -/
def Item.spanWithin (holder : Span) (item : Item) : Span := item.span?.getD holder

/-- Values under keys, in the order of the text. -/
abbrev Entries := List (Key × Item)

end ReleaseDiff.Toml
