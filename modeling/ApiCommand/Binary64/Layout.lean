import ApiCommand.Binary64.Shortest

/-!
# Decimal layouts

How the digits of a number are written down: positionally within a range of magnitudes, with a
power of ten outside of it. The choices of a format are one `DecimalLayout` value.
-/

namespace ApiCommand

/-- The choices a format makes in writing a number. -/
structure DecimalLayout where
  /-- Leading digits with a smaller power of ten are written with an exponent. -/
  leastPositional : Int
  /-- Leading digits with a greater power of ten are written with an exponent. -/
  greatestPositional : Int
  /-- Whether exponents that are not negative carry a sign. -/
  exponentPlus : Bool

namespace DecimalLayout

/-- Writes an exponent. -/
def exponentText (layout : DecimalLayout) (e : Int) : List Char :=
  if e < 0 then '-' :: Nat.toDigits 10 (-e).toNat
  else (if layout.exponentPlus then ['+'] else []) ++ Nat.toDigits 10 e.toNat

/-- Writes a positive decimal. Positional texts have at least one digit on each side of the
point. -/
def decimalText (layout : DecimalLayout) (d : Decimal) : List Char :=
  let digits := Nat.toDigits 10 d.digits
  let leading : Int := d.exponent + (digits.length : Int) - 1
  if layout.leastPositional ≤ leading ∧ leading ≤ layout.greatestPositional then
    if 0 ≤ d.exponent then digits ++ List.replicate d.exponent.toNat '0' ++ ['.', '0']
    else if 0 ≤ leading then
      digits.take (leading.toNat + 1) ++ '.' :: digits.drop (leading.toNat + 1)
    else '0' :: '.' :: List.replicate ((-leading).toNat - 1) '0' ++ digits
  else
    let fraction := digits.drop 1
    digits.take 1 ++ (if fraction.isEmpty then [] else '.' :: fraction) ++
      'e' :: layout.exponentText leading

/-- Writes a number with the fewest digits that read back. -/
def text (layout : DecimalLayout) (x : Binary64) : List Char :=
  (if x.negative then ['-'] else []) ++
    if x.isZero then ['0', '.', '0'] else layout.decimalText x.shortest

end DecimalLayout

end ApiCommand
