/-!
# Binary floating-point numbers

The finite numbers of the binary64 format, held as a sign, a significand and a power of two, and
computed with exact integer arithmetic. Every operation that has to round does so through
`Binary64.ofRatio`, which takes the nearest number and, halfway between two, the one with the even
significand. A result beyond the largest finite number is `none`.
-/

namespace ApiCommand

/-- The number `significand * 2 ^ exponent`, negated if `negative`. -/
structure Binary64 where
  /-- Zero has a sign too. -/
  negative : Bool
  /-- Below `2 ^ 53`; at least `2 ^ 52` unless the exponent is the least one. -/
  significand : Nat
  /-- Between `-1074` and `971`. -/
  exponent : Int
  deriving DecidableEq, Inhabited

namespace Binary64

/-- The least exponent, at which significands may be small. -/
def minExponent : Int := -1074

/-- The greatest exponent of a finite number. -/
def maxExponent : Int := 971

/-- The format admits this combination of significand and exponent. -/
def Canonical (x : Binary64) : Prop :=
  x.significand < Nat.pow 2 53 ∧ minExponent ≤ x.exponent ∧ x.exponent ≤ maxExponent ∧
    (x.exponent = minExponent ∨ Nat.pow 2 52 ≤ x.significand)

/-- Zero with the given sign. -/
def zero (negative : Bool) : Binary64 := ⟨negative, 0, minExponent⟩

/-- Either zero. -/
def isZero (x : Binary64) : Bool := x.significand == 0

/-- Equality of values: the two zeros are equal. -/
def same (x y : Binary64) : Bool := x == y || (x.isZero && y.isZero)

/-- The value has no fractional part. -/
def isInteger (x : Binary64) : Bool :=
  0 ≤ x.exponent || x.significand % Nat.pow 2 (-x.exponent).toNat == 0

/-- The integer nearest to `num / den`, the even one if two are equally near. -/
def roundDiv (num den : Nat) : Nat :=
  let quotient := num / den
  let twice := 2 * (num % den)
  if twice < den then quotient
  else if den < twice then quotient + 1
  else if quotient % 2 = 0 then quotient
  else quotient + 1

/-- A ratio equal to `num / den / 2 ^ e`. -/
def scaleDown (num den : Nat) (e : Int) : Nat × Nat :=
  if 0 ≤ e then (num, den * Nat.pow 2 e.toNat) else (num * Nat.pow 2 (-e).toNat, den)

/-- The exponent at which a positive ratio has a significand of 53 bits, or the least exponent if
that one is greater. -/
def ratioExponent (num den : Nat) : Int :=
  let guess : Int := (num.log2 : Int) - (den.log2 : Int) - 52
  let (n, d) := scaleDown num den guess
  max minExponent (if n / d < Nat.pow 2 52 then guess - 1 else guess)

/-- The number nearest to `num / den`, negated if `negative`. -/
def ofRatio (negative : Bool) (num den : Nat) : Option Binary64 :=
  if num = 0 then some (zero negative)
  else
    let e := ratioExponent num den
    let (n, d) := scaleDown num den e
    let rounded := roundDiv n d
    let (significand, exponent) :=
      if rounded = Nat.pow 2 53 then (Nat.pow 2 52, e + 1) else (rounded, e)
    if maxExponent < exponent then none else some ⟨negative, significand, exponent⟩

/-- The number nearest to a natural number. -/
def ofNat (n : Nat) : Option Binary64 := ofRatio false n 1

/-- The magnitude as a ratio of natural numbers. -/
def magnitude (x : Binary64) : Nat × Nat :=
  if 0 ≤ x.exponent then (x.significand * Nat.pow 2 x.exponent.toNat, 1)
  else (x.significand, Nat.pow 2 (-x.exponent).toNat)

/-- The same number with the given sign. -/
def withSign (x : Binary64) (negative : Bool) : Binary64 := { x with negative }

/-- The rounded product. -/
def mul (x y : Binary64) : Option Binary64 :=
  ofRatio (x.negative != y.negative) (x.magnitude.1 * y.magnitude.1)
    (x.magnitude.2 * y.magnitude.2)

/-- The rounded quotient; `y` is not zero. -/
def div (x y : Binary64) : Option Binary64 :=
  ofRatio (x.negative != y.negative) (x.magnitude.1 * y.magnitude.2)
    (x.magnitude.2 * y.magnitude.1)

/-- The number of decimal digits of a natural number; one for zero. -/
def decimalLength (n : Nat) : Nat := (Nat.toDigits 10 n).length

/-- The number nearest to `digits * 10 ^ exponent`. Exponents far outside the range of the format
are settled by the position of the leading digit, so that no large power is computed for them. -/
def ofDecimal (negative : Bool) (digits : Nat) (exponent : Int) : Option Binary64 :=
  if digits = 0 then some (zero negative)
  else
    let leading : Int := (decimalLength digits : Int) + exponent
    if 310 < leading then none
    else if leading < -330 then some (zero negative)
    else if 0 ≤ exponent then ofRatio negative (digits * Nat.pow 10 exponent.toNat) 1
    else ofRatio negative digits (Nat.pow 10 (-exponent).toNat)

end Binary64

end ApiCommand
