import ReleaseDiff.Toml.Basic
import ReleaseDiff.Toml.Blank

set_option autoImplicit false

/-!
# Texts and keys in TOML

## Main definitions

* `ReleaseDiff.Toml.readText?` — reads a text in any of the four ways of quoting.
* `ReleaseDiff.Toml.readKeys?` — reads a key, which may be dotted.
-/

namespace ReleaseDiff.Toml

/-- What a reader gives: a text, and what follows it. -/
abbrev TextRead := Option (List Char × List Char)

/-- Puts a character in front of a text that was read. -/
def TextRead.cons (c : Char) (r : TextRead) : TextRead := r.map fun p => (c :: p.1, p.2)

/-- The value of a hexadecimal digit. -/
def hexValue? (c : Char) : Option Nat :=
  if c.isDigit then some (c.toNat - '0'.toNat)
  else if 'a' ≤ c ∧ c ≤ 'f' then some (c.toNat - 'a'.toNat + 10)
  else if 'A' ≤ c ∧ c ≤ 'F' then some (c.toNat - 'A'.toNat + 10)
  else none

/-- The character of a code in hexadecimal digits. -/
def codeChar? (digits : List Char) : Option Char := do
  let code ← digits.foldlM (fun n c => (hexValue? c).map (n * 16 + ·)) 0
  if code < 0xD800 ∨ 0xE000 ≤ code ∧ code < 0x110000 then some (Char.ofNat code) else none

/-- The character of an escape of one letter. -/
def shortEscape? (c : Char) : Option Char :=
  if c = '"' ∨ c = '\\' then some c
  else if c = 'b' then some '\x08'
  else if c = 'f' then some '\x0c'
  else if c = 'n' then some '\n'
  else if c = 'r' then some '\r'
  else if c = 't' then some '\t'
  else none

/-- Reads a text of one line with escapes, up to its closing quote. -/
def readBasic? : List Char → TextRead
  | [] => none
  | '"' :: rest => some ([], rest)
  | '\\' :: 'u' :: a :: b :: c :: d :: rest =>
    match codeChar? [a, b, c, d] with
    | some x => (readBasic? rest).cons x
    | none => none
  | '\\' :: 'U' :: a :: b :: c :: d :: e :: f :: g :: h :: rest =>
    match codeChar? [a, b, c, d, e, f, g, h] with
    | some x => (readBasic? rest).cons x
    | none => none
  | '\\' :: e :: rest =>
    match shortEscape? e with
    | some x => (readBasic? rest).cons x
    | none => none
  | c :: rest => if isPlain c then (readBasic? rest).cons c else none

/-- Reads a text of one line without escapes, up to its closing quote. -/
def readLiteral? : List Char → TextRead
  | [] => none
  | c :: rest =>
    if c = '\x27' then some ([], rest)
    else if isPlain c then (readLiteral? rest).cons c
    else none

/-- The end of a text of several lines: three quotes, before which up to two more belong to the
text. The first quote has been read. -/
def closing? (quote : Char) (rest : List Char) : TextRead :=
  if [quote, quote, quote, quote].isPrefixOf rest then some ([quote, quote], rest.drop 4)
  else if [quote, quote, quote].isPrefixOf rest then some ([quote], rest.drop 3)
  else if [quote, quote].isPrefixOf rest then some ([], rest.drop 2)
  else none

/-- Reads a text of several lines with escapes. While a line is being joined to the one before it,
blanks and line ends are dropped. -/
def readBasicLines? : Bool → List Char → TextRead
  | _, [] => none
  | joining, c :: rest =>
    if c = '\r' then
      (if rest.head? = some '\n' then readBasicLines? joining rest else none)
    else if joining && (isBlank c || c = '\n') then readBasicLines? true rest
    else if c = '\n' then (readBasicLines? false rest).cons c
    else if c = '"' then
      match closing? '"' rest with
      | some r => some r
      | none => (readBasicLines? false rest).cons c
    else if c = '\\' then
      match rest with
      | [] => none
      | 'u' :: d₁ :: d₂ :: d₃ :: d₄ :: rest =>
        match codeChar? [d₁, d₂, d₃, d₄] with
        | some x => (readBasicLines? false rest).cons x
        | none => none
      | 'U' :: d₁ :: d₂ :: d₃ :: d₄ :: d₅ :: d₆ :: d₇ :: d₈ :: rest =>
        match codeChar? [d₁, d₂, d₃, d₄, d₅, d₆, d₇, d₈] with
        | some x => (readBasicLines? false rest).cons x
        | none => none
      | e :: rest' =>
        match shortEscape? e with
        | some x => (readBasicLines? false rest').cons x
        | none =>
          if (lineEnd? (skipBlanks (e :: rest'))).isSome then
            (if isBlank e || e = '\n' || e = '\r' then readBasicLines? true rest' else none)
          else none
    else if isPlain c then (readBasicLines? false rest).cons c
    else none

/-- Reads a text of several lines without escapes. -/
def readLiteralLines? : List Char → TextRead
  | [] => none
  | c :: rest =>
    if c = '\r' then (if rest.head? = some '\n' then readLiteralLines? rest else none)
    else if c = '\n' then (readLiteralLines? rest).cons c
    else if c = '\x27' then
      match closing? c rest with
      | some r => some r
      | none => (readLiteralLines? rest).cons c
    else if isPlain c then (readLiteralLines? rest).cons c
    else none

/-- Drops the line end that may follow the opening quotes of a text of several lines. -/
def skipFirstLineEnd (cs : List Char) : List Char := (lineEnd? cs).getD cs

/-- **Reads a text** in any of the four ways of quoting. -/
def readText? : List Char → TextRead
  | '"' :: '"' :: '"' :: rest => readBasicLines? false (skipFirstLineEnd rest)
  | '"' :: rest => readBasic? rest
  | '\x27' :: '\x27' :: '\x27' :: rest => readLiteralLines? (skipFirstLineEnd rest)
  | '\x27' :: rest => readLiteral? rest
  | _ => none

/-! ## Keys -/

/-- Whether a character may stand in a key without quotes. -/
def isBareKeyChar (c : Char) : Bool := c.isAlphanum || c = '-' || c = '_'

/-- Reads one part of a key. -/
def readKeyPart? (cs : List Char) : TextRead :=
  match cs with
  | '"' :: rest => readBasic? rest
  | '\x27' :: rest => readLiteral? rest
  | _ =>
    match cs.takeWhile isBareKeyChar with
    | [] => none
    | name => some (name, cs.dropWhile isBareKeyChar)

/-- Reads a key of at most so many parts; blanks may surround every part. -/
def readKeyParts? : Nat → List Char → Option (List Key × List Char)
  | 0, _ => none
  | fuel + 1, cs => do
    let start := skipBlanks cs
    let (name, rest) ← readKeyPart? start
    let k : Key := ⟨String.ofList name, .between start rest⟩
    match skipBlanks rest with
    | '.' :: rest =>
      let (ks, rest) ← readKeyParts? fuel rest
      some (k :: ks, rest)
    | rest => some ([k], rest)

/-- **Reads a key**, which may be dotted, and the blanks around it. -/
def readKeys? (cs : List Char) : Option (List Key × List Char) :=
  readKeyParts? (cs.length + 1) cs

end ReleaseDiff.Toml
