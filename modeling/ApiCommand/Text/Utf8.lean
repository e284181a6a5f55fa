/-!
# UTF-8

Bytes as text. `decode?` accepts valid UTF-8 only. `decodeLossy` accepts any bytes: each longest
beginning of a character that is not continued properly becomes one replacement character.
-/

namespace ApiCommand.Text.Utf8

/-- The bytes of a string. -/
def encode (s : String) : List UInt8 := s.toUTF8.toList

/-- The text of valid UTF-8. -/
def decode? (bytes : List UInt8) : Option String := String.fromUTF8? ⟨bytes.toArray⟩

/-- Stands for bytes that are no text. -/
def replacement : Char := Char.ofNat 0xFFFD

/-- How many bytes must follow a first byte, and the range that the second one must be in. Bytes
that start no character are `none`. -/
def following (b : UInt8) : Option (Nat × UInt8 × UInt8) :=
  if b < 0x80 then some (0, 0, 0)
  else if b < 0xC2 then none
  else if b < 0xE0 then some (1, 0x80, 0xBF)
  else if b = 0xE0 then some (2, 0xA0, 0xBF)
  else if b = 0xED then some (2, 0x80, 0x9F)
  else if b < 0xF0 then some (2, 0x80, 0xBF)
  else if b = 0xF0 then some (3, 0x90, 0xBF)
  else if b < 0xF4 then some (3, 0x80, 0xBF)
  else if b = 0xF4 then some (3, 0x80, 0x8F)
  else none

/-- The byte continues a character. -/
def continues (b : UInt8) : Bool := 0x80 ≤ b && b ≤ 0xBF

/-- The last six bits of a byte that continues a character. -/
def payload (b : UInt8) : Nat := b.toNat % 64

/-- Text of any bytes. -/
def decodeLossyChars (bytes : List UInt8) : List Char :=
  match bytes with
  | [] => []
  | b :: r =>
    match following b, r with
    | none, r => replacement :: decodeLossyChars r
    | some (0, _, _), r => Char.ofNat b.toNat :: decodeLossyChars r
    | some (_ + 1, _, _), [] => [replacement]
    | some (more + 1, low, high), b₁ :: r₁ =>
      if b₁ < low || high < b₁ then replacement :: decodeLossyChars (b₁ :: r₁)
      else
        match more, r₁ with
        | 0, r₁ => Char.ofNat (b.toNat % 32 * 64 + payload b₁) :: decodeLossyChars r₁
        | _ + 1, [] => [replacement]
        | more + 1, b₂ :: r₂ =>
          if !continues b₂ then replacement :: decodeLossyChars (b₂ :: r₂)
          else
            match more, r₂ with
            | 0, r₂ =>
              Char.ofNat (b.toNat % 16 * 4096 + payload b₁ * 64 + payload b₂) ::
                decodeLossyChars r₂
            | _ + 1, [] => [replacement]
            | _ + 1, b₃ :: r₃ =>
              if !continues b₃ then replacement :: decodeLossyChars (b₃ :: r₃)
              else
                Char.ofNat (b.toNat % 8 * 262144 + payload b₁ * 4096 + payload b₂ * 64 +
                  payload b₃) :: decodeLossyChars r₃

/-- Text of any bytes, as a string. -/
def decodeLossy (bytes : List UInt8) : String := String.ofList (decodeLossyChars bytes)

end ApiCommand.Text.Utf8
