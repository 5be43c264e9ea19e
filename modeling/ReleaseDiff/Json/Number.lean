import ReleaseDiff.Decimal.Binary

set_option autoImplicit false

/-!
# Numbers in JSON

A number is read into a whole number that fits 64 bits and a power of ten. Digits that no longer fit
are dropped; before the point each of them still counts as a power of ten. A number too large for
double precision is refused.

## Main definitions

* `ReleaseDiff.Json.readNumber?` — reads a number, and refuses one that is too large.
-/

namespace ReleaseDiff.Json

/-- The value of a decimal digit. -/
def digitValue (c : Char) : Nat := c.toNat - '0'.toNat

/-- The whole number with one more digit, if it fits 64 bits. -/
def appendDigit? (n : Nat) (c : Char) : Option Nat :=
  let next := n * 10 + digitValue c
  if next < Nat.pow 2 64 then some next else none

/-- Reads digits before the point. A digit that does not fit, and every digit after it, counts as a
power of ten. -/
def readWhole : Decimal → List Char → Decimal
  | d, [] => d
  | d, c :: rest =>
    match appendDigit? d.digits c with
    | some n => readWhole { d with digits := n } rest
    | none => { d with exponent := d.exponent + (rest.length + 1) }

/-- Reads digits behind the point, up to the first that does not fit. -/
def readFraction : Decimal → List Char → Decimal
  | d, [] => d
  | d, c :: rest =>
    match appendDigit? d.digits c with
    | some n => readFraction ⟨n, d.exponent - 1⟩ rest
    | none => d

/-- The exponent of a number as written. -/
structure ExponentParts where
  /-- The letter and the sign. -/
  opening : List Char
  /-- Whether the sign is a minus. -/
  isNegative : Bool
  /-- The digits. -/
  digits : List Char

/-- The parts of a number as written. -/
structure NumberParts where
  /-- The sign. -/
  sign : List Char
  /-- The digits before the point. -/
  whole : List Char
  /-- The digits behind the point; none where there is no point. -/
  fraction : List Char
  /-- The exponent, if there is one. -/
  exponent : Option ExponentParts

namespace NumberParts

/-- The number as written. -/
def text (p : NumberParts) : List Char :=
  p.sign ++ p.whole ++ (if p.fraction.isEmpty then [] else '.' :: p.fraction)
    ++ (match p.exponent with
        | none => []
        | some e => e.opening ++ e.digits)

/-- The exponent as a number. -/
def exponentValue (p : NumberParts) : Int :=
  match p.exponent with
  | none => 0
  | some e =>
    let value : Nat := e.digits.foldl (fun n c => n * 10 + digitValue c) 0
    if e.isNegative then -value else value

/-- The number, sign apart. -/
def decimal (p : NumberParts) : Decimal :=
  let d := readFraction (readWhole ⟨0, 0⟩ p.whole) p.fraction
  { d with exponent := d.exponent + p.exponentValue }

/-- Whether the number is too large. -/
def overflows (p : NumberParts) : Bool := p.decimal.roundedProductOverflows

end NumberParts

/-- Splits off the digits at the start. -/
def splitDigits (cs : List Char) : List Char × List Char :=
  (cs.takeWhile Char.isDigit, cs.dropWhile Char.isDigit)

/-- Splits off the sign of a number. -/
def splitMinus : List Char → List Char × List Char
  | '-' :: rest => (['-'], rest)
  | rest => ([], rest)

/-- Reads the digits before the point; a zero stands alone. -/
def readWholeDigits? (cs : List Char) : Option (List Char × List Char) :=
  match splitDigits cs with
  | ([], _) => none
  | ('0' :: _ :: _, _) => none
  | (ds, rest) => some (ds, rest)

/-- Reads a point with digits behind it, if there is a point. -/
def readFractionDigits? : List Char → Option (List Char × List Char)
  | '.' :: rest =>
    match splitDigits rest with
    | ([], _) => none
    | (ds, rest) => some (ds, rest)
  | rest => some ([], rest)

/-- Splits off the sign of an exponent. -/
def splitSign : List Char → List Char × List Char
  | '-' :: rest => (['-'], rest)
  | '+' :: rest => (['+'], rest)
  | rest => ([], rest)

/-- Reads an exponent, if there is one. -/
def readExponent? : List Char → Option (Option ExponentParts × List Char)
  | c :: rest =>
    if c = 'e' ∨ c = 'E' then
      let (sign, rest) := splitSign rest
      match splitDigits rest with
      | ([], _) => none
      | (digits, rest) => some (some ⟨c :: sign, sign = ['-'], digits⟩, rest)
    else some (none, c :: rest)
  | [] => some (none, [])

/-- **Reads a number** at the start of a text; gives its text and what follows it. -/
def readNumber? (cs : List Char) : Option (String × List Char) := do
  let (sign, rest) := splitMinus cs
  let (whole, rest) ← readWholeDigits? rest
  let (fraction, rest) ← readFractionDigits? rest
  let (exponent, rest) ← readExponent? rest
  let parts : NumberParts := { sign, whole, fraction, exponent }
  if parts.overflows then none else some (String.ofList parts.text, rest)

end ReleaseDiff.Json
