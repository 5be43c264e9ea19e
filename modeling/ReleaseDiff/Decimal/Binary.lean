set_option autoImplicit false

/-!
# Decimals in binary floating point

A binary floating point number of double precision is a whole number below two to the power of 53
times a power of two. A decimal is rounded to the nearest such number, a tie to the even one.

## Main definitions

* `ReleaseDiff.Decimal` — a whole number times a power of ten.
* `ReleaseDiff.Binary` — a whole number times a power of two, or too large a value.
* `ReleaseDiff.Decimal.toBinary` — the nearest number of double precision.
* `ReleaseDiff.Decimal.roundedProductOverflows` — whether a product of rounded factors is too large.
-/

namespace ReleaseDiff

/-- **A decimal**: a whole number times a power of ten. -/
structure Decimal where
  /-- The digits, read as a whole number. -/
  digits : Nat
  /-- The power of ten. -/
  exponent : Int
  deriving DecidableEq, Repr

/-- **A number of double precision**, sign apart. -/
inductive Binary where
  /-- A whole number below two to the power of 53 times a power of two. -/
  | finite (mantissa : Nat) (exponent : Int)
  /-- A value too large for double precision. -/
  | infinite
  deriving DecidableEq, Repr

/-- The quotient rounded to the nearest whole number, a tie to the even one. -/
def divRoundEven (num den : Nat) : Nat :=
  let quotient := num / den
  let twice := 2 * (num % den)
  if twice < den then quotient
  else if den < twice then quotient + 1
  else if quotient % 2 = 0 then quotient else quotient + 1

namespace Binary

/-- The number of binary digits of a mantissa. -/
def precision : Nat := 53

/-- The smallest power of two. -/
def minExponent : Int := -1074

/-- The largest power of two. -/
def maxExponent : Int := 971

/-- The nearest number to a positive quotient. -/
def ofQuotient (num den : Nat) : Binary :=
  let guess : Int := (num.log2 : Int) - (den.log2 : Int) - precision
  let scaled (q : Int) : Nat × Nat :=
    if 0 ≤ q then (num, den * Nat.pow 2 q.toNat) else (num * Nat.pow 2 (-q).toNat, den)
  let fits (q : Int) : Bool := (scaled q).1 < (scaled q).2 * Nat.pow 2 precision
  let q := max minExponent (if fits guess then guess else guess + 1)
  let mantissa := divRoundEven (scaled q).1 (scaled q).2
  if mantissa = Nat.pow 2 precision then
    (if maxExponent < q + 1 then infinite else finite (mantissa / 2) (q + 1))
  else if maxExponent < q then infinite
  else finite mantissa q

end Binary

namespace Decimal

/-- The number of decimal digits of a whole number; one for zero. -/
def digitCount (n : Nat) : Nat := (Nat.toDigits 10 n).length

/-- The nearest number of double precision. -/
def toBinary (d : Decimal) : Binary :=
  if d.digits = 0 then .finite 0 0
  else if 400 < (digitCount d.digits : Int) + d.exponent then .infinite
  else if (digitCount d.digits : Int) + d.exponent < -400 then .finite 0 0
  else if 0 ≤ d.exponent then Binary.ofQuotient (d.digits * Nat.pow 10 d.exponent.toNat) 1
  else Binary.ofQuotient d.digits (Nat.pow 10 (-d.exponent).toNat)

/-- The exact value of a number of double precision as a quotient. -/
def quotient : Binary → Option (Nat × Nat)
  | .infinite => none
  | .finite m q => some (if 0 ≤ q then (m * Nat.pow 2 q.toNat, 1) else (m, Nat.pow 2 (-q).toNat))

/-- Whether a decimal is too large for double precision if its digits and its power of ten are
rounded first and their product after that. -/
def roundedProductOverflows (d : Decimal) : Bool :=
  if d.digits = 0 ∨ d.exponent < 0 then false
  else if 308 < d.exponent then true
  else
    match quotient (toBinary ⟨d.digits, 0⟩), quotient (toBinary ⟨1, d.exponent⟩) with
    | some (a, b), some (c, e) => Binary.ofQuotient (a * c) (b * e) = .infinite
    | _, _ => true

end Decimal

end ReleaseDiff
