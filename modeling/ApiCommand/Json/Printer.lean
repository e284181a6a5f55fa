import ApiCommand.Binary64.Layout
import ApiCommand.Json.Basic

/-!
# JSON text

`Json.text` writes a value without blanks, `Json.pretty` over several lines. Members appear by
ascending key. Strings escape the quote, the backslash and control characters, and nothing else.
-/

namespace ApiCommand.Json

/-- JSON numbers are positional from `10 ^ -5` up to below `10 ^ 16`. -/
def numberLayout : DecimalLayout := ⟨-5, 15, true⟩

/-- Writes an integer. -/
def intChars (n : Int) : List Char :=
  if n < 0 then '-' :: Nat.toDigits 10 n.natAbs else Nat.toDigits 10 n.natAbs

/-- Writes a number. -/
def numberChars (n : Number) : List Char :=
  match n with
  | .int value => intChars value
  | .float value => numberLayout.text value

/-- A lower-case hexadecimal digit. -/
def hexDigit (n : Nat) : Char := Nat.digitChar n

/-- Writes a character inside a string. -/
def escapeChar (c : Char) : List Char :=
  if c = '"' then ['\\', '"']
  else if c = '\\' then ['\\', '\\']
  else if c = '\n' then ['\\', 'n']
  else if c = '\r' then ['\\', 'r']
  else if c = '\t' then ['\\', 't']
  else if c.toNat = 8 then ['\\', 'b']
  else if c.toNat = 12 then ['\\', 'f']
  else if c.toNat < 32 then
    ['\\', 'u', '0', '0', hexDigit (c.toNat / 16), hexDigit (c.toNat % 16)]
  else [c]

/-- Writes a string. -/
def stringChars (s : String) : List Char :=
  '"' :: (s.toList.flatMap escapeChar ++ ['"'])

mutual

/-- The text of a value followed by `rest`. -/
def writeOnto (v : Json) (rest : List Char) : List Char :=
  match v with
  | null => 'n' :: 'u' :: 'l' :: 'l' :: rest
  | bool true => 't' :: 'r' :: 'u' :: 'e' :: rest
  | bool false => 'f' :: 'a' :: 'l' :: 's' :: 'e' :: rest
  | number n => numberChars n ++ rest
  | string s => stringChars s ++ rest
  | array [] => '[' :: ']' :: rest
  | array (x :: xs) => '[' :: writeOnto x (writeItems xs rest)
  | object [] => '{' :: '}' :: rest
  | object ((k, x) :: xs) => '{' :: (stringChars k ++ ':' :: writeOnto x (writeMembers xs rest))

/-- Further items of an array and its end, followed by `rest`. -/
def writeItems (xs : List Json) (rest : List Char) : List Char :=
  match xs with
  | [] => ']' :: rest
  | x :: xs => ',' :: writeOnto x (writeItems xs rest)

/-- Further members of an object and its end, followed by `rest`. -/
def writeMembers (xs : List (String × Json)) (rest : List Char) : List Char :=
  match xs with
  | [] => '}' :: rest
  | (k, x) :: xs => ',' :: (stringChars k ++ ':' :: writeOnto x (writeMembers xs rest))

end

/-- The text of a value without blanks. -/
def text (v : Json) : String := String.ofList (writeOnto v [])

/-- The text of a value as a user would type it: strings stand for themselves. -/
def plainText (v : Json) : String :=
  match v with
  | string s => s
  | v => v.text

/-- A line feed and two blanks for each level. -/
def lineBreak (level : Nat) : List Char := '\n' :: List.replicate (2 * level) ' '

mutual

/-- The text of a value over several lines, at a level of nesting, followed by `rest`. -/
def prettyOnto (level : Nat) (v : Json) (rest : List Char) : List Char :=
  match v with
  | array (x :: xs) =>
    '[' :: (lineBreak (level + 1) ++ prettyOnto (level + 1) x (prettyItems level xs rest))
  | object ((k, x) :: xs) =>
    '{' :: (lineBreak (level + 1) ++ stringChars k ++
      ':' :: ' ' :: prettyOnto (level + 1) x (prettyMembers level xs rest))
  | v => writeOnto v rest

/-- Further items of an array and its end. -/
def prettyItems (level : Nat) (xs : List Json) (rest : List Char) : List Char :=
  match xs with
  | [] => lineBreak level ++ ']' :: rest
  | x :: xs =>
    ',' :: (lineBreak (level + 1) ++ prettyOnto (level + 1) x (prettyItems level xs rest))

/-- Further members of an object and its end. -/
def prettyMembers (level : Nat) (xs : List (String × Json)) (rest : List Char) : List Char :=
  match xs with
  | [] => lineBreak level ++ '}' :: rest
  | (k, x) :: xs =>
    ',' :: (lineBreak (level + 1) ++ stringChars k ++
      ':' :: ' ' :: prettyOnto (level + 1) x (prettyMembers level xs rest))

end

/-- The text of a value over several lines. -/
def pretty (v : Json) : String := String.ofList (prettyOnto 0 v [])

/-- The text over several lines of an object whose members appear in the given order. -/
def prettyMembersInOrder (members : List (String × Json)) : String :=
  String.ofList (prettyOnto 0 (object members) [])

end ApiCommand.Json
