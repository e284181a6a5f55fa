import ApiCommand.Binary64.Basic

/-!
# Shortest decimals

`Binary64.shortest` writes a number with the fewest decimal digits that read back as the same
number. The reals that round to a number form an interval, closed at both ends exactly if the
significand is even. For one digit, two digits, and so on up to seventeen, the two neighbours of
the number on the grid of decimals of that length are tested against the interval; the first grid
with a neighbour inside is taken, of two such neighbours the nearer one, and of two equally near
the one with the even last digit.
-/

namespace ApiCommand

/-- The positive number `digits * 10 ^ exponent`. -/
structure Decimal where
  /-- The digits, read as one natural number. -/
  digits : Nat
  /-- The power of ten of the last digit. -/
  exponent : Int
  deriving DecidableEq

namespace Decimal

/-- Drops zeros at the end, at most `fuel` of them. -/
def trim (fuel : Nat) (d : Decimal) : Decimal :=
  match fuel with
  | 0 => d
  | fuel + 1 =>
    if d.digits ≠ 0 ∧ d.digits % 10 = 0 then trim fuel ⟨d.digits / 10, d.exponent + 1⟩ else d

/-- The value as a ratio. -/
def ratio (d : Decimal) : Nat × Nat :=
  if 0 ≤ d.exponent then (d.digits * Nat.pow 10 d.exponent.toNat, 1)
  else (d.digits, Nat.pow 10 (-d.exponent).toNat)

end Decimal

namespace Binary64

/-- Compares two ratios of natural numbers. -/
def compareRatio (a b : Nat × Nat) : Ordering := compare (a.1 * b.2) (b.1 * a.2)

/-- A multiple of a quarter of the unit in the last place, as a ratio. -/
def quarters (x : Binary64) (count : Nat) : Nat × Nat :=
  let e := x.exponent - 2
  if 0 ≤ e then (count * Nat.pow 2 e.toNat, 1) else (count, Nat.pow 2 (-e).toNat)

/-- The lower end of the interval of reals that round to `x`. Below a power of two the spacing of
the numbers halves. -/
def lowerEnd (x : Binary64) : Nat × Nat :=
  let half := if x.significand = Nat.pow 2 52 ∧ x.exponent ≠ minExponent then 1 else 2
  quarters x (4 * x.significand - half)

/-- The upper end of the interval of reals that round to `x`. -/
def upperEnd (x : Binary64) : Nat × Nat := quarters x (4 * x.significand + 2)

/-- The positive real `r` rounds to the magnitude of `x`. -/
def roundsTo (x : Binary64) (r : Nat × Nat) : Bool :=
  let low := compareRatio (lowerEnd x) r
  let high := compareRatio r (upperEnd x)
  if x.significand % 2 = 0 then low != .gt && high != .gt else low == .lt && high == .lt

/-- The power of ten of the leading digit of a positive ratio. -/
def leadingPower (r : Nat × Nat) : Int :=
  if r.2 ≤ r.1 then (decimalLength (r.1 / r.2) : Int) - 1
  else
    let length := decimalLength (r.2 / r.1)
    if r.2 ≤ r.1 * Nat.pow 10 (length - 1) then -((length - 1 : Nat) : Int) else -(length : Int)

/-- The neighbours of a ratio on the grid of multiples of `10 ^ exponent`: the multiple at or below
it, and the next one. -/
def neighbours (r : Nat × Nat) (exponent : Int) : Decimal × Decimal :=
  let below :=
    if 0 ≤ exponent then r.1 / (r.2 * Nat.pow 10 exponent.toNat)
    else r.1 * Nat.pow 10 (-exponent).toNat / r.2
  (⟨below, exponent⟩, ⟨below + 1, exponent⟩)

/-- Which of two neighbours is nearer to a ratio that lies between them; the even one of a tie. -/
def nearer (r : Nat × Nat) (low high : Decimal) : Decimal :=
  let (a, b) := (low.ratio, high.ratio)
  let (sum, den) := (a.1 * b.2 + b.1 * a.2, a.2 * b.2)
  match compare (2 * r.1 * den) (sum * r.2) with
  | .lt => low
  | .gt => high
  | .eq => if low.digits % 2 = 0 then low else high

/-- The best decimal of exactly the given number of digits that reads back as `x`, if one does. -/
def onGrid (x : Binary64) (length : Nat) : Option Decimal :=
  let r := x.magnitude
  let (low, high) := neighbours r (leadingPower r - ((length : Int) - 1))
  match roundsTo x low.ratio, roundsTo x high.ratio with
  | true, true => some (nearer r low high)
  | true, false => some low
  | false, true => some high
  | false, false => none

/-- The decimal of fewest digits that reads back as the magnitude of `x`, which is not zero. -/
def shortest (x : Binary64) : Decimal :=
  let found := (List.range 17).findSome? fun n => onGrid x (n + 1)
  (found.getD ⟨x.significand, 0⟩).trim 18

end Binary64

end ApiCommand
