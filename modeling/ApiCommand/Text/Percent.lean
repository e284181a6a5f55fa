import ApiCommand.Text.Utf8

/-!
# Percent encoding

Bytes of a text that are not unreserved characters are written as `%` and two hexadecimal digits.
Reading is lenient: a `%` that is not followed by two hexadecimal digits stands for itself. It fails
only if the bytes read are not a text.
-/

namespace ApiCommand.Text.Percent

/-- The byte is written as itself: a letter, a digit or one of `-_.~`. -/
def isUnreserved (b : UInt8) : Bool :=
  let c := Char.ofNat b.toNat
  c.isAlphanum || c == '-' || c == '_' || c == '.' || c == '~'

/-- An upper-case hexadecimal digit. -/
def hexDigit (n : Nat) : Char :=
  if n < 10 then Char.ofNat ('0'.toNat + n) else Char.ofNat ('A'.toNat + (n - 10))

/-- The value of a hexadecimal digit of either case. -/
def hexValue? (c : Char) : Option Nat :=
  if c.isDigit then some (c.toNat - '0'.toNat)
  else if 'a' ≤ c ∧ c ≤ 'f' then some (c.toNat - 'a'.toNat + 10)
  else if 'A' ≤ c ∧ c ≤ 'F' then some (c.toNat - 'A'.toNat + 10)
  else none

/-- Writes one byte. -/
def encodeByte (b : UInt8) : List Char :=
  if isUnreserved b then [Char.ofNat b.toNat]
  else ['%', hexDigit (b.toNat / 16), hexDigit (b.toNat % 16)]

/-- Writes a text. -/
def encode (s : String) : String := String.ofList ((Utf8.encode s).flatMap encodeByte)

/-- The bytes that an encoded text denotes. -/
def bytes (cs : List Char) : List UInt8 :=
  match cs with
  | [] => []
  | '%' :: a :: b :: rest =>
    match hexValue? a, hexValue? b with
    | some high, some low => UInt8.ofNat (16 * high + low) :: bytes rest
    | _, _ => '%'.toUInt8 :: bytes (a :: b :: rest)
  | c :: rest => String.utf8EncodeChar c ++ bytes rest

/-- Reads a text. -/
def decode? (s : String) : Option String := Utf8.decode? (bytes s.toList)

end ApiCommand.Text.Percent
