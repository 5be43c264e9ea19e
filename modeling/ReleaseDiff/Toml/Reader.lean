import ReleaseDiff.Toml.Scalar
import ReleaseDiff.Toml.Table
import ReleaseDiff.Toml.Text

set_option autoImplicit false

/-!
# Reading TOML

## Main definitions

* `ReleaseDiff.Toml.readItem?` — reads a value.
* `ReleaseDiff.Toml.readLines?` — reads the lines of a document.
* `ReleaseDiff.Toml.parse?` — reads a document.
-/

namespace ReleaseDiff.Toml

mutual

/-- **Reads a value** at the start of a text. The number bounds the steps. -/
def readItem? : Nat → List Char → Option (Item × List Char)
  | 0, _ => none
  | fuel + 1, cs =>
    match cs with
    | [] => none
    | c :: rest =>
      if c = '"' ∨ c = '\x27' then
        (readText? cs).map fun (s, rest) => (.string (.between cs rest) (String.ofList s), rest)
      else if c = '[' then
        (readItems? fuel rest).map fun (items, rest) => (.array (.between cs rest) items, rest)
      else if c = '{' then
        match skipBlanks rest with
        | '}' :: rest => some (.table (.braces (.between cs rest)) [], rest)
        | _ => do
          let (values, rest) ← readBraces? fuel rest
          let entries ← ofBraces? values
          some (.table (.braces (.between cs rest)) entries, rest)
      else (readScalar? cs).map fun (x, rest) => (x.toItem (.between cs rest), rest)

/-- Reads the values of an array up to its closing bracket. A comma may stand behind the last. -/
def readItems? : Nat → List Char → Option (List Item × List Char)
  | 0, _ => none
  | fuel + 1, cs =>
    match skipLayout cs with
    | ']' :: rest => some ([], rest)
    | start =>
      match readItem? fuel start with
      | none => none
      | some (item, rest) =>
        match skipLayout rest with
        | ',' :: rest =>
          (readItems? fuel rest).map fun (items, rest) => (item :: items, rest)
        | ']' :: rest => some ([item], rest)
        | _ => none

/-- Reads the values in a pair of braces up to the closing one. -/
def readBraces? : Nat → List Char → Option (List (List Key × Item) × List Char)
  | 0, _ => none
  | fuel + 1, cs =>
    match readKeys? cs with
    | some (ks, '=' :: rest) =>
      match readItem? fuel (skipBlanks rest) with
      | none => none
      | some (item, rest) =>
        match skipBlanks rest with
        | ',' :: rest =>
          (readBraces? fuel rest).map fun (values, rest) => ((ks, item) :: values, rest)
        | '}' :: rest => some ([(ks, item)], rest)
        | _ => none
    | _ => none

end

/-- Reads a key and its value. -/
def readAssignment? (cs : List Char) : Option ((List Key × Item) × List Char) := do
  let (ks, rest) ← readKeys? cs
  match rest with
  | '=' :: rest =>
    let (item, rest) ← readItem? (2 * cs.length + 2) (skipBlanks rest)
    some ((ks, item), rest)
  | _ => none

/-- Reads a header; brackets are doubled where several tables share it. -/
def readHeader? (cs : List Char) : Option (Header × List Char) := do
  let (isShared, inner) ← match cs with
    | '[' :: '[' :: rest => some (true, rest)
    | '[' :: rest => some (false, rest)
    | _ => none
  let (ks, rest) ← readKeys? inner
  let rest ← match isShared, rest with
    | true, ']' :: ']' :: rest => some rest
    | false, ']' :: rest => some rest
    | _, _ => none
  match ks.reverse with
  | [] => none
  | last :: way => some (⟨way.reverse, last, isShared, .between cs rest⟩, rest)

/-- **Reads the lines of a document.** The number bounds the lines. -/
def readLines? : Nat → Assembly → List Char → Option Assembly
  | 0, _, _ => none
  | fuel + 1, a, cs =>
    match skipBlanks cs with
    | [] => some a
    | start@(c :: _) =>
      if c = '#' ∨ c = '\n' ∨ c = '\r' then
        match endOfLine? start with
        | some rest => readLines? fuel a rest
        | none => none
      else if c = '[' then
        match readHeader? start with
        | none => none
        | some (h, rest) =>
          match a.openTable? h, endOfLine? rest with
          | some a, some rest => readLines? fuel a rest
          | _, _ => none
      else
        match readAssignment? start with
        | none => none
        | some ((ks, item), rest) =>
          match a.add? ks item, endOfLine? rest with
          | some a, some rest => readLines? fuel a rest
          | _, _ => none

/-- Drops the mark that may stand before a document. -/
def skipMark : List Char → List Char
  | '\ufeff' :: rest => rest
  | rest => rest

/-- **Reads a document**; gives its values in the order of the text, or nothing where it is not
TOML. -/
def parse? (document : String) : Option Entries :=
  let cs := skipMark document.toList
  (readLines? (cs.length + 1) .start cs).bind Assembly.close?

end ReleaseDiff.Toml
