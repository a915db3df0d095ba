/-!
# Shortest decimals

The shortest decimal of a binary64 number is the one with the fewest digits
among those that round to the number, and of those the one nearest to it.
The arithmetic is exact: a number and the ends of the interval that rounds to
it are fractions with one denominator.
-/

namespace TaggedUnion

/-- A decimal number: its digits, read as one natural number, times a power of ten. -/
structure Decimal where
  digits : Nat
  exponent : Int
deriving DecidableEq, Repr

namespace Decimal

/-- A positive number with the interval of the numbers that round to it. -/
structure Target where
  lower : Nat
  value : Nat
  upper : Nat
  denominator : Nat
  /-- Whether the ends of the interval round to the number as well. -/
  closed : Bool

/-- The finite positive number with the given bits. -/
def Target.ofBits (bits : UInt64) : Target :=
  let fraction := bits.toNat % Nat.pow 2 52
  let biased := bits.toNat / Nat.pow 2 52 % Nat.pow 2 11
  let significand := if biased = 0 then fraction else fraction + Nat.pow 2 52
  let exponent : Int := (max biased 1 : Nat) - 1077
  let scale := Nat.pow 2 exponent.toNat
  let below := if fraction = 0 ∧ 1 < biased then 1 else 2
  { lower := (4 * significand - below) * scale
    value := 4 * significand * scale
    upper := (4 * significand + 2) * scale
    denominator := Nat.pow 2 (-exponent).toNat
    closed := significand % 2 = 0 }

/-- The exponent of the leading decimal digit. -/
def Target.magnitude (target : Target) : Int :=
  let whole := target.value / target.denominator
  if 0 < whole then
    (Nat.toDigits 10 whole).length - 1
  else
    let places := (List.range 400).find? fun shift =>
      target.denominator ≤ target.value * Nat.pow 10 shift
    Int.negOfNat (places.getD 0)

/-- Whether a point lies in the interval, on the grid that multiplies numerators by `scale`. -/
def Target.holds (target : Target) (scale point : Nat) : Bool :=
  if target.closed then
    target.lower * scale ≤ point && point ≤ target.upper * scale
  else
    target.lower * scale < point && point < target.upper * scale

/-- The nearer of the two neighbours with the given number of digits that rounds to the target. -/
def Target.neighbour? (target : Target) (count : Nat) : Option Decimal :=
  let exponent := target.magnitude - count + 1
  let scale := Nat.pow 10 (-exponent).toNat
  let unit := Nat.pow 10 exponent.toNat * target.denominator
  let floor := target.value * scale / unit
  let remainder := target.value * scale % unit
  let down := target.holds scale (floor * unit)
  let up := target.holds scale ((floor + 1) * unit)
  let nearerUp := unit < 2 * remainder || (unit == 2 * remainder && floor % 2 == 1)
  if up && (nearerUp || !down) then some ⟨floor + 1, exponent⟩
  else if down then some ⟨floor, exponent⟩
  else none

/-- The decimal of a finite positive number with the fewest digits. -/
def shortest (bits : UInt64) : Decimal :=
  let target := Target.ofBits bits
  ((List.range 17).findSome? fun count => target.neighbour? (count + 1)).getD ⟨0, 0⟩

/-- The digits without trailing zeros, and the power of ten of the leading one. -/
def normalDigits (decimal : Decimal) : List Char × Int :=
  let digits := Nat.toDigits 10 decimal.digits
  ((digits.reverse.dropWhile (· = '0')).reverse, decimal.exponent + digits.length - 1)

end Decimal

end TaggedUnion
