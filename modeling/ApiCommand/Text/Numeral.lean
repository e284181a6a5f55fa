import ApiCommand.Binary64.Basic

/-!
# Numerals

Decimal numerals as users write them: integers with an optional sign, and decimal fractions with an
optional power of ten.
-/

namespace ApiCommand.Text

/-- The number that a list of digits denotes. -/
def digitsValue (digits : List Char) : Nat :=
  digits.foldl (fun n c => 10 * n + (c.toNat - '0'.toNat)) 0

/-- The number denoted by a text of digits only, of which there is at least one. -/
def natural? (cs : List Char) : Option Nat :=
  if cs.isEmpty || !cs.all Char.isDigit then none else some (digitsValue cs)

/-- A text without its sign, and whether the sign was a minus. -/
def splitSign (cs : List Char) : Bool × List Char :=
  match cs with
  | '-' :: rest => (true, rest)
  | '+' :: rest => (false, rest)
  | cs => (false, cs)

/-- A signed integer of 64 bits. -/
def int64? (cs : List Char) : Option Int := do
  let (negative, digits) := splitSign cs
  let n ← natural? digits
  let value : Int := if negative then -(n : Int) else n
  if -Int.pow 2 63 ≤ value ∧ value < Int.pow 2 63 then some value else none

/-- An unsigned integer of 64 bits; a plus sign is allowed, a minus sign is not. -/
def word64? (cs : List Char) : Option Nat := do
  let digits := match cs with
    | '+' :: rest => rest
    | cs => cs
  let n ← natural? digits
  if n < Nat.pow 2 64 then some n else none

/-- The value of an exponent mark and what follows it; zero if the text is empty. -/
def exponent? (cs : List Char) : Option Int :=
  match cs with
  | [] => some 0
  | c :: rest =>
    if c = 'e' ∨ c = 'E' then
      let (negative, digits) := splitSign rest
      (natural? digits).map fun n => if negative then -(n : Int) else n
    else none

/-- The finite number nearest to a decimal text: a sign, digits with at most one point among or
beside them, and an exponent, of which only the digits are required. -/
def decimal? (cs : List Char) : Option Binary64 := do
  let (negative, cs) := splitSign cs
  let whole := cs.takeWhile Char.isDigit
  let (fraction, rest) := match cs.dropWhile Char.isDigit with
    | '.' :: rest => (rest.takeWhile Char.isDigit, rest.dropWhile Char.isDigit)
    | rest => ([], rest)
  let digits := whole ++ fraction
  let exponent ← exponent? rest
  if digits.isEmpty then none
  else Binary64.ofDecimal negative (digitsValue digits) (exponent - fraction.length)

end ApiCommand.Text
