import ApiCommand.Json.Basic
import ApiCommand.Text.Numeral

/-!
# Reading JSON text

`Json.parse?` reads one value with blanks around it. Containers may be nested 127 deep. Of two
members with one key the later counts. Escapes of surrogates have to come in pairs.

A numeral without fraction and exponent is an integer if it fits 64 bits, signed or unsigned. Any
other numeral is a floating-point number, read in two roundings: the leading digits that fit 64 bits
make a rounded significand, which is then multiplied or divided by a rounded power of ten. A numeral
beyond the largest number makes the text invalid.
-/

namespace ApiCommand.Json

/-- Containers may be nested this deep. -/
def maxDepth : Nat := 127

/-- The character is a blank between the parts of a text. -/
def isBlank (c : Char) : Bool := c == ' ' || c == '\t' || c == '\n' || c == '\r'

/-- Drops blanks at the start. -/
def skipBlanks (cs : List Char) : List Char := cs.dropWhile isBlank

/-! ## Numbers -/

/-- Appends digits to a number as long as it stays below `2 ^ 64`; the result and how many digits
were appended. -/
def accumulate (start : Nat) (digits : List Char) : Nat × Nat :=
  match digits with
  | [] => (start, 0)
  | c :: rest =>
    let next := 10 * start + (c.toNat - '0'.toNat)
    if next < Nat.pow 2 64 then
      let (total, count) := accumulate next rest
      (total, count + 1)
    else (start, 0)

/-- Divides by `10 ^ n`, in steps of at most `10 ^ 308`, until the quotient is zero. -/
def dividePower (x : Binary64) (n : Nat) : Option Binary64 :=
  if n ≤ 308 then (Binary64.ofNat (Nat.pow 10 n)).bind x.div
  else if x.isZero then some x
  else ((Binary64.ofNat (Nat.pow 10 308)).bind x.div).bind fun y => dividePower y (n - 308)
termination_by n

/-- The number `significand * 10 ^ exponent`, in two roundings. -/
def scaled (negative : Bool) (significand : Nat) (exponent : Int) : Option Binary64 := do
  let x ← Binary64.ofNat significand
  let magnitude ←
    if 0 ≤ exponent then
      if exponent ≤ 308 then (Binary64.ofNat (Nat.pow 10 exponent.toNat)).bind x.mul
      else if x.isZero then some x
      else none
    else dividePower x (-exponent).toNat
  some (magnitude.withSign negative)

/-- The power of ten that follows a numeral's digits: none written is zero, and a mark without
digits is an error. -/
def readExponent (cs : List Char) : Option (Option Int × List Char) :=
  match cs with
  | c :: rest =>
    if c = 'e' ∨ c = 'E' then
      let (negative, rest) := Text.splitSign rest
      let digits := rest.takeWhile Char.isDigit
      (Text.natural? digits).map fun n =>
        (some (if negative then -(n : Int) else n), rest.dropWhile Char.isDigit)
    else some (none, cs)
  | [] => some (none, [])

/-- The digits after a point: none written is `none`, and a point without digits is an error. -/
def readFraction (cs : List Char) : Option (Option (List Char) × List Char) :=
  match cs with
  | '.' :: rest =>
    let digits := rest.takeWhile Char.isDigit
    if digits.isEmpty then none else some (some digits, rest.dropWhile Char.isDigit)
  | cs => some (none, cs)

/-- The number of a numeral's parts. -/
def assemble (negative : Bool) (whole : List Char) (fraction : Option (List Char))
    (exponent : Option Int) : Option Number :=
  let (significand, kept) := accumulate 0 whole
  let dropped : Int := ((whole.length - kept : Nat) : Int)
  match fraction, exponent with
  | none, none =>
    if dropped = 0 ∧ (if negative then 0 < significand ∧ significand ≤ Nat.pow 2 63 else True)
    then
      some (.int (if negative then -(significand : Int) else significand))
    else (scaled negative significand dropped).map .float
  | fraction, exponent =>
    let (significand, places) := accumulate significand (fraction.getD [])
    (scaled negative significand (dropped - places + exponent.getD 0)).map .float

/-- Reads a number. -/
def readNumber (cs : List Char) : Option (Number × List Char) := do
  let (negative, cs) := match cs with
    | '-' :: rest => (true, rest)
    | cs => (false, cs)
  let whole := match cs with
    | '0' :: _ => ['0']
    | cs => cs.takeWhile Char.isDigit
  let rest := cs.drop whole.length
  if whole.isEmpty || (whole == ['0'] && rest.head?.any Char.isDigit) then none
  else
    let (fraction, rest) ← readFraction rest
    let (exponent, rest) ← readExponent rest
    let n ← assemble negative whole fraction exponent
    some (n, rest)

/-! ## Strings -/

/-- The value of a hexadecimal digit. -/
def hexDigit? (c : Char) : Option Nat :=
  if c.isDigit then some (c.toNat - '0'.toNat)
  else if 'a' ≤ c ∧ c ≤ 'f' then some (c.toNat - 'a'.toNat + 10)
  else if 'A' ≤ c ∧ c ≤ 'F' then some (c.toNat - 'A'.toNat + 10)
  else none

/-- The value of four hexadecimal digits. -/
def hexCode? (a b c d : Char) : Option Nat := do
  let a ← hexDigit? a
  let b ← hexDigit? b
  let c ← hexDigit? c
  let d ← hexDigit? d
  some (((a * 16 + b) * 16 + c) * 16 + d)

/-- The character of a short escape. -/
def shortEscape? (c : Char) : Option Char :=
  if c = '"' then some '"'
  else if c = '\\' then some '\\'
  else if c = '/' then some '/'
  else if c = 'b' then some (Char.ofNat 8)
  else if c = 'f' then some (Char.ofNat 12)
  else if c = 'n' then some '\n'
  else if c = 'r' then some '\r'
  else if c = 't' then some '\t'
  else none

/-- The code is a leading surrogate. -/
def isLeading (code : Nat) : Bool := 0xD800 ≤ code && code < 0xDC00

/-- The code is a trailing surrogate. -/
def isTrailing (code : Nat) : Bool := 0xDC00 ≤ code && code < 0xE000

/-- Reads the rest of a string up to and including its closing quote. -/
def readString (cs : List Char) : Option (List Char × List Char) :=
  match cs with
  | [] => none
  | '"' :: rest => some ([], rest)
  | '\\' :: 'u' :: a :: b :: c :: d :: rest => do
    let code ← hexCode? a b c d
    if isTrailing code then none
    else if isLeading code then
      match rest with
      | '\\' :: 'u' :: e :: f :: g :: h :: rest => do
        let low ← hexCode? e f g h
        if !isTrailing low then none
        else
          let (text, rest) ← readString rest
          some (Char.ofNat (0x10000 + (code - 0xD800) * 0x400 + (low - 0xDC00)) :: text, rest)
      | _ => none
    else
      let (text, rest) ← readString rest
      some (Char.ofNat code :: text, rest)
  | '\\' :: e :: rest => do
    let c ← shortEscape? e
    let (text, rest) ← readString rest
    some (c :: text, rest)
  | c :: rest =>
    if c = '\\' ∨ c.toNat < 32 then none
    else do
      let (text, rest) ← readString rest
      some (c :: text, rest)

/-! ## Values -/

mutual

/-- Reads a value. `fuel` bounds the work and `depth` the nesting. -/
def readValue (fuel depth : Nat) (cs : List Char) : Option (Json × List Char) :=
  match fuel with
  | 0 => none
  | fuel + 1 =>
    match skipBlanks cs with
    | 'n' :: 'u' :: 'l' :: 'l' :: rest => some (null, rest)
    | 't' :: 'r' :: 'u' :: 'e' :: rest => some (bool true, rest)
    | 'f' :: 'a' :: 'l' :: 's' :: 'e' :: rest => some (bool false, rest)
    | '"' :: rest => do
      let (text, rest) ← readString rest
      some (string (String.ofList text), rest)
    | '[' :: rest =>
      match depth with
      | 0 => none
      | depth + 1 =>
        match skipBlanks rest with
        | ']' :: rest => some (array [], rest)
        | rest => do
          let (items, rest) ← readItems fuel depth rest
          some (array items, rest)
    | '{' :: rest =>
      match depth with
      | 0 => none
      | depth + 1 =>
        match skipBlanks rest with
        | '}' :: rest => some (object [], rest)
        | rest => do
          let (members, rest) ← readMembers fuel depth rest
          some (ofMembers members, rest)
    | cs => do
      let (n, rest) ← readNumber cs
      some (number n, rest)

/-- Reads the items of an array, of which there is at least one, and its end. -/
def readItems (fuel depth : Nat) (cs : List Char) : Option (List Json × List Char) :=
  match fuel with
  | 0 => none
  | fuel + 1 => do
    let (item, rest) ← readValue fuel depth cs
    match skipBlanks rest with
    | ']' :: rest => some ([item], rest)
    | ',' :: rest => do
      let (items, rest) ← readItems fuel depth rest
      some (item :: items, rest)
    | _ => none

/-- Reads the members of an object, of which there is at least one, and its end. -/
def readMembers (fuel depth : Nat) (cs : List Char) :
    Option (List (String × Json) × List Char) :=
  match fuel with
  | 0 => none
  | fuel + 1 =>
    match skipBlanks cs with
    | '"' :: rest => do
      let (key, rest) ← readString rest
      match skipBlanks rest with
      | ':' :: rest => do
        let (value, rest) ← readValue fuel depth rest
        let entry := (String.ofList key, value)
        match skipBlanks rest with
        | '}' :: rest => some ([entry], rest)
        | ',' :: rest => do
          let (members, rest) ← readMembers fuel depth rest
          some (entry :: members, rest)
        | _ => none
      | _ => none
    | _ => none

end

/-- Reads a text that consists of one value, nested at most `depth` deep. -/
def parseWithin? (depth : Nat) (cs : List Char) : Option Json := do
  let (value, rest) ← readValue (2 * cs.length + 2) depth cs
  if (skipBlanks rest).isEmpty then some value else none

/-- Reads a text that consists of one value. -/
def parse? (s : String) : Option Json := parseWithin? maxDepth s.toList

/-- The value that a text denotes if it is JSON, and the text itself otherwise. -/
def parseLoose (s : String) : Json := (parse? s).getD (string s)

end ApiCommand.Json
