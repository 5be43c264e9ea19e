import ReleaseDiff.Json.Basic

set_option autoImplicit false

/-!
# Writing JSON

A document is written with two blanks for every level, one item on a line, and one blank behind a
colon. Empty arrays and objects stay on one line.

## Main definitions

* `ReleaseDiff.Json.quote` — a text in quotes, with escapes.
* `ReleaseDiff.Json.pretty` — a document.
-/

namespace ReleaseDiff.Json

/-- The lower-case hexadecimal digit of a number below sixteen. -/
def hexDigit (n : Nat) : Char :=
  if n < 10 then Char.ofNat ('0'.toNat + n) else Char.ofNat ('a'.toNat + (n - 10))

/-- A character as it stands in quotes. Quotes and backslashes are escaped, as is every control
character below the blank; everything else stands for itself. -/
def escapeChar (c : Char) : List Char :=
  if c = '"' then ['\\', '"']
  else if c = '\\' then ['\\', '\\']
  else if c = '\x08' then ['\\', 'b']
  else if c = '\x0c' then ['\\', 'f']
  else if c = '\n' then ['\\', 'n']
  else if c = '\r' then ['\\', 'r']
  else if c = '\t' then ['\\', 't']
  else if c.toNat < 0x20 then
    ['\\', 'u', '0', '0', hexDigit (c.toNat / 16), hexDigit (c.toNat % 16)]
  else [c]

/-- A text in quotes. -/
def quote (s : String) : List Char :=
  '"' :: s.toList.flatMap escapeChar ++ ['"']

/-- A new line at a level. -/
def newLine (level : Nat) : List Char :=
  '\n' :: List.replicate (2 * level) ' '

mutual

/-- A value at a level. -/
def render (level : Nat) : Json → List Char
  | null => "null".toList
  | bool true => "true".toList
  | bool false => "false".toList
  | number text => text.toList
  | string s => quote s
  | array [] => ['[', ']']
  | array (item :: rest) =>
    '[' :: newLine (level + 1) ++ render (level + 1) item ++ renderItems (level + 1) rest
      ++ newLine level ++ [']']
  | object [] => ['{', '}']
  | object ((name, value) :: rest) =>
    '{' :: newLine (level + 1) ++ quote name ++ [':', ' '] ++ render (level + 1) value
      ++ renderFields (level + 1) rest ++ newLine level ++ ['}']

/-- The items of an array behind the first, at a level. -/
def renderItems (level : Nat) : List Json → List Char
  | [] => []
  | item :: rest => ',' :: newLine level ++ render level item ++ renderItems level rest

/-- The fields of an object behind the first, at a level. -/
def renderFields (level : Nat) : List (String × Json) → List Char
  | [] => []
  | (name, value) :: rest =>
    ',' :: newLine level ++ quote name ++ [':', ' '] ++ render level value
      ++ renderFields level rest

end

/-- **A document as text.** -/
def pretty (document : Json) : String :=
  String.ofList (render 0 document)

end ReleaseDiff.Json
