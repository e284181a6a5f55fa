import ApiCommand.Json.Reader

/-!
# TOML texts

Blanks, comments, keys and the four kinds of strings. Strings between double quotes have escapes,
strings between single quotes have none; strings between three quotes may have several lines.
-/

namespace ApiCommand.Toml

/-- The character is a blank within a line. -/
def isBlank (c : Char) : Bool := c == ' ' || c == '\t'

/-- The character must not occur in comments and strings. -/
def isControl (c : Char) : Bool := (c.toNat < 0x20 && c != '\t') || c.toNat == 0x7F

/-- Drops blanks at the start. -/
def skipBlanks (cs : List Char) : List Char := cs.dropWhile isBlank

/-- What follows a line end at the start of a text. -/
def afterLineEnd? (cs : List Char) : Option (List Char) :=
  match cs with
  | '\n' :: rest => some rest
  | '\r' :: '\n' :: rest => some rest
  | _ => none

/-- Drops a comment at the start. -/
def skipComment? (cs : List Char) : Option (List Char) :=
  match cs with
  | '#' :: rest =>
    let comment := rest.takeWhile fun c => c != '\n' && c != '\r'
    if comment.any isControl then none else some (rest.drop comment.length)
  | cs => some cs

/-- Drops blanks, comments and line ends at the start. -/
def skipLines (fuel : Nat) (cs : List Char) : Option (List Char) :=
  match fuel with
  | 0 => none
  | fuel + 1 => do
    let rest ← skipComment? (skipBlanks cs)
    match afterLineEnd? rest with
    | some rest => skipLines fuel rest
    | none => some rest

/-! ## Escapes -/

/-- The character of a short escape. -/
def shortEscape? (c : Char) : Option Char :=
  [('b', 0x8), ('t', 0x9), ('n', 0xA), ('f', 0xC), ('r', 0xD), ('e', 0x1B), ('"', 0x22),
    ('\\', 0x5C)].lookup c |>.map Char.ofNat

/-- The number of digits of an escape by code. -/
def escapeDigits? (c : Char) : Option Nat := [('x', 2), ('u', 4), ('U', 8)].lookup c

/-- The character of an escape by code. -/
def codeEscape? (count : Nat) (digits : List Char) : Option Char := do
  let n ← digits.foldlM (fun n c => (Json.hexDigit? c).map fun d => 16 * n + d) 0
  if digits.length = count ∧ n.isValidChar then some (Char.ofNat n) else none

/-- The character of the escape at the start of a text, without its backslash, and its length. -/
def readEscape? (cs : List Char) : Option (Char × Nat) :=
  match cs with
  | [] => none
  | c :: rest =>
    match escapeDigits? c with
    | some count => (codeEscape? count (rest.take count)).map fun x => (x, count + 1)
    | none => (shortEscape? c).map fun x => (x, 1)

/-! ## Strings -/

/-- Reads the rest of a string on one line and its closing quote. -/
def readShort (quote : Char) (fuel : Nat) (cs : List Char) : Option (List Char × List Char) :=
  match fuel, cs with
  | 0, _ => none
  | _, [] => none
  | fuel + 1, c :: rest =>
    if c = quote then some ([], rest)
    else if c = '\\' ∧ quote = '"' then do
      let (x, n) ← readEscape? rest
      let (text, rest) ← readShort quote fuel (rest.drop n)
      some (x :: text, rest)
    else if isControl c then none
    else do
      let (text, rest) ← readShort quote fuel rest
      some (c :: text, rest)

/-- What follows the blanks and line ends behind a backslash at the end of a line. -/
def afterContinuation? (cs : List Char) : Option (List Char) :=
  (afterLineEnd? (skipBlanks cs)).map fun rest =>
    rest.dropWhile fun c => isBlank c || c == '\n' || c == '\r'

/-- Reads the rest of a string on several lines and its closing quotes. Up to two quotes may stand
right before the closing ones. -/
def readLong (quote : Char) (fuel : Nat) (cs : List Char) : Option (List Char × List Char) :=
  match fuel, cs with
  | 0, _ => none
  | _, [] => none
  | fuel + 1, c :: rest =>
    let quotes := (cs.takeWhile (· == quote)).length
    if 3 ≤ quotes then
      -- The last three quotes close the string; those before them belong to it.
      if quotes ≤ 5 then some (List.replicate (quotes - 3) quote, cs.drop quotes) else none
    else
      let continued := if c = '\\' ∧ quote = '"' then afterContinuation? rest else none
      match afterLineEnd? cs, continued with
      | some rest, _ => do
        let (text, rest) ← readLong quote fuel rest
        some ('\n' :: text, rest)
      | none, some rest => readLong quote fuel rest
      | none, none =>
        if c = '\\' ∧ quote = '"' then do
          let (x, n) ← readEscape? rest
          let (text, rest) ← readLong quote fuel (rest.drop n)
          some (x :: text, rest)
        else if isControl c then none
        else do
          let (text, rest) ← readLong quote fuel rest
          some (c :: text, rest)

/-- Reads a string that starts with a quote. A line end right after three quotes is dropped. -/
def readString (quote : Char) (cs : List Char) : Option (String × List Char) := do
  let (text, rest) ←
    match cs with
    | a :: b :: c :: rest =>
      if a = quote ∧ b = quote ∧ c = quote then
        readLong quote (cs.length + 1) ((afterLineEnd? rest).getD rest)
      else readShort quote (cs.length + 1) (b :: c :: rest)
    | cs => readShort quote (cs.length + 1) (cs.drop 1)
  some (String.ofList text, rest)

/-! ## Keys -/

/-- The character may occur in a key without quotes. -/
def isKeyChar (c : Char) : Bool := c.isAlphanum || c == '_' || c == '-'

/-- Reads one part of a key. -/
def readKeyPart (cs : List Char) : Option (String × List Char) :=
  match cs with
  | '"' :: rest => (readShort '"' (rest.length + 1) rest).map fun e => (String.ofList e.1, e.2)
  | '\'' :: rest => (readShort '\'' (rest.length + 1) rest).map fun e => (String.ofList e.1, e.2)
  | cs =>
    let name := cs.takeWhile isKeyChar
    if name.isEmpty then none else some (String.ofList name, cs.drop name.length)

/-- Reads a key, which consists of parts with dots between them, and drops blanks around it. -/
def readKey (fuel : Nat) (cs : List Char) : Option (List String × List Char) :=
  match fuel with
  | 0 => none
  | fuel + 1 => do
    let (name, rest) ← readKeyPart (skipBlanks cs)
    match skipBlanks rest with
    | '.' :: rest =>
      let (names, rest) ← readKey fuel rest
      some (name :: names, rest)
    | rest => some ([name], rest)

end ApiCommand.Toml
