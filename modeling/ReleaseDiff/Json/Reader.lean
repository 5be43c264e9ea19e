import ReleaseDiff.Json.Basic
import ReleaseDiff.Json.Number

set_option autoImplicit false

/-!
# Reading JSON

## Main definitions

* `ReleaseDiff.Json.readQuoted?` — reads a text up to its closing quote.
* `ReleaseDiff.Json.readValue?` — reads a value at the start of a text.
* `ReleaseDiff.Json.parse?` — reads a document.
-/

namespace ReleaseDiff.Json

/-- The blanks of JSON. -/
def isBlank (c : Char) : Bool := c = ' ' || c = '\t' || c = '\n' || c = '\r'

/-- Drops the blanks at the start. -/
def skipBlanks (cs : List Char) : List Char := cs.dropWhile isBlank

/-- The value of a hexadecimal digit. -/
def hexValue? (c : Char) : Option Nat :=
  if c.isDigit then some (c.toNat - '0'.toNat)
  else if 'a' ≤ c ∧ c ≤ 'f' then some (c.toNat - 'a'.toNat + 10)
  else if 'A' ≤ c ∧ c ≤ 'F' then some (c.toNat - 'A'.toNat + 10)
  else none

/-- The number of four hexadecimal digits. -/
def hexUnit? (a b c d : Char) : Option Nat := do
  return (((← hexValue? a) * 16 + (← hexValue? b)) * 16 + (← hexValue? c)) * 16 + (← hexValue? d)

/-- Whether a unit is the first half of a pair. -/
def isHighHalf (n : Nat) : Bool := 0xD800 ≤ n && n < 0xDC00

/-- Whether a unit is the second half of a pair. -/
def isLowHalf (n : Nat) : Bool := 0xDC00 ≤ n && n < 0xE000

/-- The character of two halves. -/
def joinHalves (high low : Nat) : Char :=
  Char.ofNat (0x10000 + (high - 0xD800) * 0x400 + (low - 0xDC00))

/-- The character of an escape of one letter. -/
def shortEscape? (c : Char) : Option Char :=
  if c = '"' ∨ c = '\\' ∨ c = '/' then some c
  else if c = 'b' then some '\x08'
  else if c = 'f' then some '\x0c'
  else if c = 'n' then some '\n'
  else if c = 'r' then some '\r'
  else if c = 't' then some '\t'
  else none

/-- Puts a character in front of a text that was read. -/
def consRead (c : Char) (r : List Char × List Char) : List Char × List Char := (c :: r.1, r.2)

/-- **Reads a text up to its closing quote.** A half of a pair that stands alone is refused, as is a
control character below the blank. -/
def readQuoted? : List Char → Option (List Char × List Char)
  | [] => none
  | '"' :: rest => some ([], rest)
  | '\\' :: 'u' :: a :: b :: c :: d :: rest =>
    match hexUnit? a b c d with
    | none => none
    | some unit =>
      if isHighHalf unit then
        match rest with
        | '\\' :: 'u' :: a' :: b' :: c' :: d' :: rest' =>
          match hexUnit? a' b' c' d' with
          | none => none
          | some low =>
            if isLowHalf low then (readQuoted? rest').map (consRead (joinHalves unit low))
            else none
        | _ => none
      else if isLowHalf unit then none
      else (readQuoted? rest).map (consRead (Char.ofNat unit))
  | '\\' :: e :: rest =>
    match shortEscape? e with
    | none => none
    | some c => (readQuoted? rest).map (consRead c)
  | c :: rest => if c.toNat < 0x20 then none else (readQuoted? rest).map (consRead c)

/-- Reads a word at the start of a text. -/
def readWord? (word : String) (value : Json) (cs : List Char) : Option (Json × List Char) :=
  if word.toList.isPrefixOf cs then some (value, cs.drop word.length) else none

/-- Reads a value that is neither a text nor a list nor an object. -/
def readScalar? (cs : List Char) : Option (Json × List Char) :=
  match cs with
  | 'n' :: _ => readWord? "null" null cs
  | 't' :: _ => readWord? "true" (bool true) cs
  | 'f' :: _ => readWord? "false" (bool false) cs
  | _ => (readNumber? cs).map fun (text, rest) => (number text, rest)

mutual

/-- **Reads a value** at the start of a text, with at most so many levels below it. The first number
bounds the steps. -/
def readValue? : Nat → Nat → List Char → Option (Json × List Char)
  | 0, _, _ => none
  | fuel + 1, levels, cs =>
    match skipBlanks cs with
    | '"' :: rest => (readQuoted? rest).map fun (s, rest) => (string (String.ofList s), rest)
    | '[' :: rest =>
      if levels = 0 then none
      else
        match skipBlanks rest with
        | ']' :: rest => some (array [], rest)
        | rest => (readItems? fuel (levels - 1) rest).map fun (vs, rest) => (array vs, rest)
    | '{' :: rest =>
      if levels = 0 then none
      else
        match skipBlanks rest with
        | '}' :: rest => some (object [], rest)
        | rest => (readFields? fuel (levels - 1) rest).map fun (fs, rest) => (object fs, rest)
    | rest => readScalar? rest

/-- Reads the items of an array up to its closing bracket. -/
def readItems? : Nat → Nat → List Char → Option (List Json × List Char)
  | 0, _, _ => none
  | fuel + 1, levels, cs =>
    match readValue? fuel levels cs with
    | none => none
    | some (v, rest) =>
      match skipBlanks rest with
      | ',' :: rest => (readItems? fuel levels rest).map fun (vs, rest) => (v :: vs, rest)
      | ']' :: rest => some ([v], rest)
      | _ => none

/-- Reads the fields of an object up to its closing brace. -/
def readFields? : Nat → Nat → List Char → Option (List (String × Json) × List Char)
  | 0, _, _ => none
  | fuel + 1, levels, cs =>
    match skipBlanks cs with
    | '"' :: rest =>
      match readQuoted? rest with
      | none => none
      | some (name, rest) =>
        match skipBlanks rest with
        | ':' :: rest =>
          match readValue? fuel levels rest with
          | none => none
          | some (v, rest) =>
            match skipBlanks rest with
            | ',' :: rest =>
              (readFields? fuel levels rest).map fun (fs, rest) =>
                ((String.ofList name, v) :: fs, rest)
            | '}' :: rest => some ([(String.ofList name, v)], rest)
            | _ => none
        | _ => none
    | _ => none

end

/-- The number of levels that a document may have. -/
def maxLevels : Nat := 127

/-- **Reads a document**: one value, with nothing but blanks around it. -/
def parse? (document : String) : Option Json :=
  let cs := document.toList
  match readValue? (2 * cs.length + 2) maxLevels cs with
  | some (v, rest) => if (skipBlanks rest).isEmpty then some v else none
  | none => none

end ReleaseDiff.Json
