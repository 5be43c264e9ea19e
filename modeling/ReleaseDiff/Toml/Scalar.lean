import ReleaseDiff.Toml.Basic

set_option autoImplicit false

/-!
# Unquoted values in TOML

Truth values, numbers, dates and times are words without blanks; only a date may be separated from
its time by one blank.

## Main definitions

* `ReleaseDiff.Toml.Scalar` — what an unquoted word stands for.
* `ReleaseDiff.Toml.scalar?` — the meaning of a word.
* `ReleaseDiff.Toml.readScalar?` — reads an unquoted value.
-/

namespace ReleaseDiff.Toml

/-- **What an unquoted word stands for.** -/
inductive Scalar where
  /-- A truth value. -/
  | boolean (value : Bool)
  /-- A whole number of 64 bits. -/
  | integer (value : Int)
  /-- A number with a fraction or an exponent. -/
  | float (value : FloatValue)
  /-- A date, a time or both. -/
  | datetime
  deriving DecidableEq, Repr

/-! ## Numbers -/

/-- The value of a digit in a base up to sixteen. -/
def digitIn? (base : Nat) (c : Char) : Option Nat :=
  let value :=
    if c.isDigit then c.toNat - '0'.toNat
    else if 'a' ≤ c ∧ c ≤ 'f' then c.toNat - 'a'.toNat + 10
    else if 'A' ≤ c ∧ c ≤ 'F' then c.toNat - 'A'.toNat + 10
    else 16
  if value < base then some value else none

/-- Reads digits between which single underscores may stand. `started` tells whether a digit comes
right before. -/
def digits? (base : Nat) : Bool → List Char → Option (List Nat)
  | started, [] => if started then some [] else none
  | started, c :: rest =>
    if c = '_' then (if started then digits? base false rest else none)
    else
      match digitIn? base c with
      | some d => (digits? base true rest).map (d :: ·)
      | none => none

/-- The number of digits in a base. -/
def ofDigits (base : Nat) (ds : List Nat) : Nat := ds.foldl (fun n d => n * base + d) 0

/-- Splits off a sign. -/
def splitSign : List Char → Bool × List Char
  | '-' :: rest => (true, rest)
  | '+' :: rest => (false, rest)
  | rest => (false, rest)

/-- Reads decimal digits without a needless zero in front. -/
def wholeDigits? (cs : List Char) : Option (List Nat) :=
  match digits? 10 false cs with
  | some (0 :: _ :: _) => none
  | ds => ds

/-- A whole number with its sign, if it fits 64 bits. -/
def signed? (negative : Bool) (n : Nat) : Option Int :=
  let value : Int := if negative then -n else n
  let bound : Int := (Nat.pow 2 63 : Nat)
  if -bound ≤ value ∧ value < bound then some value else none

/-- A whole number: in decimal digits with a sign, or in another base without one. -/
def integer? (cs : List Char) : Option Int :=
  match cs with
  | '0' :: 'x' :: rest => (digits? 16 false rest).bind fun ds => signed? false (ofDigits 16 ds)
  | '0' :: 'o' :: rest => (digits? 8 false rest).bind fun ds => signed? false (ofDigits 8 ds)
  | '0' :: 'b' :: rest => (digits? 2 false rest).bind fun ds => signed? false (ofDigits 2 ds)
  | _ =>
    let (negative, rest) := splitSign cs
    (wholeDigits? rest).bind fun ds => signed? negative (ofDigits 10 ds)

/-- The parts of a word before and behind the first character of a class. -/
def splitAtFirst (p : Char → Bool) (cs : List Char) : List Char × Option (List Char) :=
  match cs.dropWhile (fun c => !p c) with
  | [] => (cs, none)
  | _ :: rest => (cs.takeWhile (fun c => !p c), some rest)

/-- The power of ten of an exponent; zero where there is none. -/
def exponent? : Option (List Char) → Option Int
  | none => some 0
  | some cs =>
    let (negative, rest) := splitSign cs
    (digits? 10 false rest).map fun ds =>
      if negative then -(ofDigits 10 ds : Int) else (ofDigits 10 ds : Int)

/-- The digits of a fraction; none where there is no point. -/
def fraction? : Option (List Char) → Option (List Nat)
  | none => some []
  | some cs => digits? 10 false cs

/-- A number with a fraction, an exponent or both. One that exceeds double precision upward is
refused. -/
def float? (cs : List Char) : Option FloatValue := do
  let (negative, unsigned) := splitSign cs
  if unsigned = ['i', 'n', 'f'] then return .infinity negative
  if unsigned = ['n', 'a', 'n'] then return .notANumber
  let (mantissa, exponent) := splitAtFirst (fun c => c = 'e' || c = 'E') unsigned
  let (whole, behind) := splitAtFirst (· = '.') mantissa
  if exponent.isNone && behind.isNone then none
  let whole ← wholeDigits? whole
  let behind ← fraction? behind
  let power ← exponent? exponent
  let value : Decimal := ⟨ofDigits 10 (whole ++ behind), power - (behind.length : Int)⟩
  if value.toBinary = .infinite then
    (if negative then some (.infinity true) else none)
  else some (.decimal negative value)

/-! ## Dates and times -/

/-- Reads a number of exactly so many digits. -/
def fixedDigits? (count : Nat) (cs : List Char) : Option (Nat × List Char) :=
  let word := cs.take count
  if word.length = count ∧ word.all Char.isDigit then
    some (ofDigits 10 (word.map fun c => c.toNat - '0'.toNat), cs.drop count)
  else none

/-- Reads one character. -/
def mark? (c : Char) : List Char → Option (List Char)
  | [] => none
  | d :: rest => if c = d then some rest else none

/-- The number of days of a month. -/
def daysOfMonth (year month : Nat) : Nat :=
  if month = 2 then
    (if year % 4 = 0 ∧ (year % 100 ≠ 0 ∨ year % 400 = 0) then 29 else 28)
  else if month = 4 ∨ month = 6 ∨ month = 9 ∨ month = 11 then 30
  else 31

/-- Reads a date. -/
def date? (cs : List Char) : Option (List Char) := do
  let (year, rest) ← fixedDigits? 4 cs
  let (month, rest) ← fixedDigits? 2 (← mark? '-' rest)
  let (day, rest) ← fixedDigits? 2 (← mark? '-' rest)
  if 1 ≤ month ∧ month ≤ 12 ∧ 1 ≤ day ∧ day ≤ daysOfMonth year month then some rest else none

/-- Reads the fraction of a second, if there is one. -/
def secondFraction? : List Char → Option (List Char)
  | '.' :: rest =>
    if (rest.takeWhile Char.isDigit).isEmpty then none else some (rest.dropWhile Char.isDigit)
  | rest => some rest

/-- Reads a time of day. -/
def time? (cs : List Char) : Option (List Char) := do
  let (hour, rest) ← fixedDigits? 2 cs
  let (minute, rest) ← fixedDigits? 2 (← mark? ':' rest)
  let (second, rest) ← fixedDigits? 2 (← mark? ':' rest)
  if hour ≤ 23 ∧ minute ≤ 59 ∧ second ≤ 60 then secondFraction? rest else none

/-- Reads the offset from universal time, if there is one. -/
def offset? : List Char → Option (List Char)
  | [] => some []
  | c :: rest =>
    if c = 'Z' ∨ c = 'z' then some rest
    else if c = '+' ∨ c = '-' then do
      let (hour, rest) ← fixedDigits? 2 rest
      let (minute, rest) ← fixedDigits? 2 (← mark? ':' rest)
      if hour ≤ 23 ∧ minute ≤ 59 then some rest else none
    else some (c :: rest)

/-- Whether a word is a time of day with or without an offset. -/
def isTimeWithOffset (cs : List Char) : Bool :=
  ((time? cs).bind offset?) = some []

/-- Whether a word is a date. -/
def isDate (cs : List Char) : Bool := date? cs = some []

/-- Whether a word is a date, a time of day, or a date with a time behind the letter T. -/
def isDatetime (cs : List Char) : Bool :=
  time? cs = some []
    || match date? cs with
      | some [] => true
      | some (c :: rest) => (c = 'T' || c = 't') && isTimeWithOffset rest
      | none => false

/-! ## Words -/

/-- **The meaning of a word.** -/
def scalar? (cs : List Char) : Option Scalar :=
  if cs = ['t', 'r', 'u', 'e'] then some (.boolean true)
  else if cs = ['f', 'a', 'l', 's', 'e'] then some (.boolean false)
  else if isDatetime cs then some .datetime
  else
    match float? cs with
    | some x => some (.float x)
    | none => (integer? cs).map .integer

/-- Whether a character may stand in an unquoted value. -/
def isWordChar (c : Char) : Bool :=
  c.isAlphanum || c = '+' || c = '-' || c = '_' || c = '.' || c = ':'

/-- Splits off the word at the start. -/
def splitWord (cs : List Char) : List Char × List Char :=
  (cs.takeWhile isWordChar, cs.dropWhile isWordChar)

/-- **Reads an unquoted value.** A time may follow its date behind a blank. -/
def readScalar? (cs : List Char) : Option (Scalar × List Char) :=
  let (word, rest) := splitWord cs
  match rest with
  | ' ' :: rest' =>
    let (second, rest'') := splitWord rest'
    if isDate word && isTimeWithOffset second then some (.datetime, rest'')
    else (scalar? word).map (·, rest)
  | _ => (scalar? word).map (·, rest)

/-- The item of an unquoted value. -/
def Scalar.toItem (span : Span) : Scalar → Item
  | boolean b => .boolean span b
  | integer n => .integer span n
  | float x => .float span x
  | datetime => .datetime span

end ReleaseDiff.Toml
