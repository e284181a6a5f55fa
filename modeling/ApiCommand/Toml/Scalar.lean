import ApiCommand.Json.Reader
import ApiCommand.Text.Split

/-!
# TOML numbers and dates

Numbers are written with single underscores between digits as one likes. Integers have to fit 64
bits. Dates and times are kept as texts in a normal form.
-/

namespace ApiCommand.Toml

/-- The digits of a numeral without the underscores between them. -/
def digits? (isDigit : Char → Bool) (cs : List Char) : Option (List Char) :=
  match cs with
  | [] => none
  | [c] => if isDigit c then some [c] else none
  | c :: '_' :: rest => if isDigit c then (digits? isDigit rest).map (c :: ·) else none
  | c :: rest => if isDigit c then (digits? isDigit rest).map (c :: ·) else none

/-- The digits of a numeral of base ten that has no superfluous zero in front. -/
def wholeDigits? (cs : List Char) : Option (List Char) :=
  (digits? Char.isDigit cs).filter fun ds => ds.head? != some '0' || ds.length == 1

/-- The integer, if it fits 64 bits, signed or unsigned. -/
def word? (n : Int) : Option Json :=
  if -Int.pow 2 63 ≤ n ∧ n < Int.pow 2 64 then some (.int n) else none

/-- A natural number in a base. -/
def inBase? (base : Nat) (cs : List Char) : Option Json := do
  let isDigit (c : Char) : Bool := (Json.hexDigit? c).any (· < base)
  let ds ← digits? isDigit cs
  word? ((ds.foldl (fun n c => base * n + (Json.hexDigit? c).getD 0) 0 : Nat) : Int)

/-- An integer. -/
def integer? (cs : List Char) : Option Json :=
  match cs with
  | '0' :: 'x' :: rest => inBase? 16 rest
  | '0' :: 'o' :: rest => inBase? 8 rest
  | '0' :: 'b' :: rest => inBase? 2 rest
  | cs => do
    let (negative, cs) := Text.splitSign cs
    let ds ← wholeDigits? cs
    let n := Text.digitsValue ds
    word? (if negative then -(n : Int) else n)

/-- A sign in front of an exponent and its digits. -/
def exponentDigits? (cs : List Char) : Option (List Char) :=
  match cs with
  | '-' :: rest => (digits? Char.isDigit rest).map ('-' :: ·)
  | '+' :: rest => digits? Char.isDigit rest
  | cs => digits? Char.isDigit cs

/-- A floating-point number, which has a fraction or an exponent. What is not finite is null. -/
def float? (cs : List Char) : Option Json := do
  let (negative, cs) := Text.splitSign cs
  if cs = "inf".toList ∨ cs = "nan".toList then some .null
  else
    let (mantissa, exponent) :=
      match Text.cut 'e' (cs.map fun c => if c = 'E' then 'e' else c) with
      | some (mantissa, exponent) => (mantissa, some exponent)
      | none => (cs, none)
    let (whole, fraction) :=
      match Text.cut '.' mantissa with
      | some (whole, fraction) => (whole, some fraction)
      | none => (mantissa, none)
    let whole ← wholeDigits? whole
    if fraction.isNone ∧ exponent.isNone then none
    let fraction ← fraction.elim (some []) fun ds =>
      (digits? Char.isDigit ds).map ('.' :: ·)
    let exponent ← exponent.elim (some []) fun ds => (exponentDigits? ds).map ('e' :: ·)
    let sign := if negative then ['-'] else []
    (Text.decimal? (sign ++ whole ++ fraction ++ exponent)).map fun x => .number (.float x)

/-! ## Dates and times -/

/-- A number of exactly two digits up to a bound, and the digits. -/
def twoDigits? (bound : Nat) (cs : List Char) : Option (Nat × List Char) :=
  if cs.length = 2 ∧ cs.all Char.isDigit ∧ Text.digitsValue cs ≤ bound then
    some (Text.digitsValue cs, cs)
  else none

/-- The number of days of a month. -/
def daysOf (year month : Nat) : Nat :=
  if month = 2 then
    if year % 4 = 0 ∧ (year % 100 ≠ 0 ∨ year % 400 = 0) then 29 else 28
  else if [4, 6, 9, 11].contains month then 30
  else 31

/-- A date. -/
def date? (cs : List Char) : Option (List Char) :=
  match cs with
  | [a, b, c, d, '-', e, f, '-', g, h] =>
    if !([a, b, c, d].all Char.isDigit) then none
    else do
      let (month, _) ← twoDigits? 12 [e, f]
      let (day, _) ← twoDigits? (daysOf (Text.digitsValue [a, b, c, d]) month) [g, h]
      if month = 0 ∨ day = 0 then none else some cs
  | _ => none

/-- The fraction of a second, with nine digits at most and without zeros at the end. -/
def fraction? (cs : List Char) : Option (List Char) :=
  match cs with
  | [] => some []
  | '.' :: ds =>
    if ds.isEmpty || !ds.all Char.isDigit then none
    else
      let kept := ((ds.take 9).reverse.dropWhile (· == '0')).reverse
      some (if kept.isEmpty then [] else '.' :: kept)
  | _ => none

/-- A time of day; seconds may be left out. -/
def time? (cs : List Char) : Option (List Char) :=
  match cs with
  | a :: b :: ':' :: c :: d :: rest => do
    let _ ← twoDigits? 23 [a, b]
    let _ ← twoDigits? 59 [c, d]
    let seconds ←
      match rest with
      | [] => some []
      | ':' :: e :: f :: rest => do
        let _ ← twoDigits? 60 [e, f]
        let fraction ← fraction? rest
        some (':' :: e :: f :: fraction)
      | _ => none
    some ([a, b, ':', c, d] ++ seconds)
  | _ => none

/-- The offset at the end of a time, cut off. -/
def cutOffset (cs : List Char) : List Char × List Char :=
  match cs.getLast? with
  | some c =>
    if c = 'Z' ∨ c = 'z' then (cs.dropLast, ['Z'])
    else
      let n := cs.length - 6
      match cs.drop n with
      | [sign, _, _, ':', _, _] =>
        if sign = '+' ∨ sign = '-' then (cs.take n, cs.drop n) else (cs, [])
      | _ => (cs, [])
  | none => (cs, [])

/-- An offset. -/
def offset? (cs : List Char) : Option (List Char) :=
  match cs with
  | [sign, a, b, ':', c, d] => do
    let _ ← twoDigits? 23 [a, b]
    let _ ← twoDigits? 59 [c, d]
    some [sign, a, b, ':', c, d]
  | cs => some cs

/-- The member under which a date or time stands in an object of its own. -/
def dateKey : String := "$__toml_private_datetime"

/-- A date, a time, or both with or without an offset. -/
def dateTime? (cs : List Char) : Option Json :=
  let text (cs : List Char) : Json := .object [(dateKey, .string (String.ofList cs))]
  match time? cs, date? cs with
  | some t, _ => some (text t)
  | none, some d => some (text d)
  | none, none => do
    let d ← date? (cs.take 10)
    match cs.drop 10 with
    | c :: rest =>
      if c = 'T' ∨ c = 't' ∨ c = ' ' then do
        let (clock, offset) := cutOffset rest
        let t ← time? clock
        let o ← offset? offset
        some (text (d ++ 'T' :: t ++ o))
      else none
    | [] => none

/-- The character may occur in a number, date, time or word. -/
def isWordChar (c : Char) : Bool :=
  c.isAlphanum || ['+', '-', '_', '.', ':'].contains c

/-- The text of a value without quotes and brackets at the start of a text. A date may be followed
by a blank and a time. -/
def wordAt (cs : List Char) : List Char :=
  let word := cs.takeWhile isWordChar
  match cs.drop word.length with
  | ' ' :: c :: rest =>
    if (date? word).isSome && c.isDigit then word ++ ' ' :: (c :: rest).takeWhile isWordChar
    else word
  | _ => word

/-- The value of a number, date, time or word. -/
def scalar? (word : List Char) : Option Json :=
  if word = "true".toList then some (.bool true)
  else if word = "false".toList then some (.bool false)
  else ((integer? word).or (float? word)).or (dateTime? word)

end ApiCommand.Toml
