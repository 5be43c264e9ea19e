import ReleaseDiff.Decimal.Binary

set_option autoImplicit false

/-!
# The shortest decimal that reads back

## Main definitions

* `ReleaseDiff.Binary.shortest` — the decimal with the fewest digits that rounds to a number of
  double precision; of several, the nearest, and of two that are equally near, the greater.
* `ReleaseDiff.Decimal.positional` — a decimal written out without a power of ten.
-/

namespace ReleaseDiff

namespace Binary

/-- A whole number times a power of ten and of two, as a quotient of whole numbers. -/
def scaledQuotient (m : Nat) (two ten : Int) : Nat × Nat :=
  (m * Nat.pow 2 two.toNat * Nat.pow 10 ten.toNat,
    Nat.pow 2 (-two).toNat * Nat.pow 10 (-ten).toNat)

/-- Whether a decimal rounds to the number. -/
def readsBack (m : Nat) (q : Int) (d : Decimal) : Bool :=
  d.toBinary = .finite m q

/-- The decimal next to the number on the grid of a power of ten, if one reads back. The nearer
neighbour is preferred, and the upper one in the middle. -/
def onGrid? (m : Nat) (q : Int) (exponent : Int) : Option Decimal :=
  let (num, den) := scaledQuotient m q (-exponent)
  let low : Decimal := ⟨num / den, exponent⟩
  let high : Decimal := ⟨num / den + 1, exponent⟩
  let lowFirst := 2 * (num % den) < den
  let first := if lowFirst then low else high
  let second := if lowFirst then high else low
  if readsBack m q first then some first
  else if readsBack m q second then some second
  else none

/-- **The decimal with the fewest digits that reads back** as the number. -/
def shortest (m : Nat) (q : Int) : Decimal :=
  if m = 0 then ⟨0, 0⟩
  else
    let (num, den) := scaledQuotient m q 0
    let top : Int := (Decimal.digitCount num : Int) - (Decimal.digitCount den : Int) + 1
    ((List.range 20).findSome? fun (n : Nat) => onGrid? m q (top - (n : Int))).getD ⟨num / den, 0⟩

end Binary

namespace Decimal

/-- **A decimal written out**, without a power of ten and with at least one digit behind the
point. -/
def positional (d : Decimal) : String :=
  let digits := Nat.toDigits 10 d.digits
  if 0 ≤ d.exponent then
    String.ofList (digits ++ List.replicate (if d.digits = 0 then 0 else d.exponent.toNat) '0')
      ++ ".0"
  else
    let behind := (-d.exponent).toNat
    let padded := List.replicate (behind + 1 - digits.length) '0' ++ digits
    String.ofList (padded.take (padded.length - behind)) ++ "."
      ++ String.ofList (padded.drop (padded.length - behind))

end Decimal

end ReleaseDiff
