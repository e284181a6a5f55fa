import ApiCommand.Json.Printer
import ApiCommand.Yaml.Resolution

/-!
# Writing YAML

`Json.yaml` writes a value in block style: one line for each key and item, sequences in the column
of the key they belong to, texts without quotes where that is not ambiguous, and texts of several
lines as blocks.
-/

namespace ApiCommand.Yaml

/-- Numbers are positional from `10 ^ -5` up to below `10 ^ 16`. -/
def numberLayout : DecimalLayout := ⟨-5, 15, false⟩

/-- How a text is written. -/
inductive Style where
  | plain | single | double | block
  deriving DecidableEq

/-- Words that some readers take for truth values. -/
def truthWords : List String :=
  ["y", "Y", "yes", "Yes", "YES", "n", "N", "no", "No", "NO", "true", "True", "TRUE", "false",
    "False", "FALSE", "on", "On", "ON", "off", "Off", "OFF"]

/-- The text would be read as something else if it were written plainly. -/
def isAmbiguous (s : String) : Bool :=
  truthWords.contains s || isPadded s ||
    match plainValue? s with
    | some (.string _) => false
    | _ => true

/-- The character separates lines where it is written. -/
def breaksLine (c : Char) : Bool :=
  c == '\n' || c == '\r' || c.toNat == 0x85 || c.toNat == 0x2028 || c.toNat == 0x2029

/-- The character can be written as it is. -/
def isPrintable (c : Char) : Bool :=
  let n := c.toNat
  n == 0xA || (0x20 ≤ n && n ≤ 0x7E) || (0xA0 ≤ n && n ≤ 0xFFFD && n != 0xFEFF) || 0x10000 ≤ n

/-- A text ends here or goes on with a blank or a line break. -/
def atGap (cs : List Char) : Bool := cs.head?.all fun c => c == ' ' || c == '\t' || breaksLine c

/-- Characters that cannot be at the start of a plain text. -/
def openers : List Char :=
  ['#', ',', '[', ']', '\x7b', '\x7d', '&', '*', '!', '|', '>', '\'', '"', '%', '@',
    Char.ofNat 0x60]

/-- The start of a text has a meaning of its own. -/
def startsMeaningful (cs : List Char) : Bool :=
  ['-', '-', '-'].isPrefixOf cs || ['.', '.', '.'].isPrefixOf cs ||
    match cs with
    | [] => false
    | c :: rest => openers.contains c || (['?', ':', '-'].contains c && atGap rest)

/-- A colon before a gap or a number sign behind one occurs in the rest of a text. -/
def holdsMeaningful (behindGap : Bool) (cs : List Char) : Bool :=
  match cs with
  | [] => false
  | c :: rest =>
    (c == ':' && atGap rest) || (c == '#' && behindGap) || holdsMeaningful (atGap [c]) rest

/-- Somewhere a character of one kind stands right before one of another kind. -/
def holdsPair (first second : Char → Bool) (cs : List Char) : Bool :=
  match cs with
  | a :: b :: rest => (first a && second b) || holdsPair first second (b :: rest)
  | _ => false

/-- Blanks at the ends of lines or characters that cannot be written rule out everything but
escapes. -/
def needsEscapes (cs : List Char) : Bool :=
  cs.any (fun c => !isPrintable c) || holdsPair (· == ' ') breaksLine cs

/-- The text has a blank or a line break at its start or end. -/
def hasLooseEnd (cs : List Char) : Bool :=
  let isLoose (c : Char) : Bool := c == ' ' || breaksLine c
  cs.head?.any isLoose || cs.getLast?.any isLoose

/-- The text can be written without quotes. -/
def allowsPlain (cs : List Char) : Bool :=
  !(needsEscapes cs || hasLooseEnd cs || cs.any breaksLine || startsMeaningful cs ||
    holdsMeaningful (cs.head?.any fun c => atGap [c]) (cs.drop 1))

/-- The text can be written as a block. -/
def allowsBlock (cs : List Char) : Bool := !(needsEscapes cs || cs.getLast? == some ' ')

/-- The text can be written in single quotes. -/
def allowsSingle (cs : List Char) : Bool :=
  !(needsEscapes cs || holdsPair breaksLine (· == ' ') cs)

/-- How a text is written. -/
def styleOf (s : String) : Style :=
  let cs := s.toList
  let quoted := if allowsSingle cs then Style.single else .double
  if cs.contains '\n' then (if allowsBlock cs then .block else .double)
  else if isAmbiguous s || !allowsPlain cs then quoted
  else .plain

/-- An upper-case hexadecimal digit. -/
def hexDigit (n : Nat) : Char := (Nat.digitChar n).toUpper

/-- The digits of a code in base 16. -/
def hexDigits (width n : Nat) : List Char :=
  (List.range width).reverse.map fun i => hexDigit (n / Nat.pow 16 i % 16)

/-- The short escapes. -/
def shortEscapes : List (Nat × Char) :=
  [(0x0, '0'), (0x7, 'a'), (0x8, 'b'), (0x9, 't'), (0xA, 'n'), (0xB, 'v'), (0xC, 'f'), (0xD, 'r'),
    (0x1B, 'e'), (0x22, '"'), (0x5C, '\\'), (0x85, 'N'), (0x2028, 'L'), (0x2029, 'P')]

/-- Writes a character between double quotes. -/
def escapeChar (c : Char) : List Char :=
  let n := c.toNat
  match shortEscapes.lookup n with
  | some x => ['\\', x]
  | none =>
    if isPrintable c then [c]
    else if n ≤ 0xFF then '\\' :: 'x' :: hexDigits 2 n
    else if n ≤ 0xFFFF then '\\' :: 'u' :: hexDigits 4 n
    else '\\' :: 'U' :: hexDigits 8 n

/-- The mark of a block: a digit if the text starts with a blank or a line break, and a sign unless
the text ends with exactly one line break. -/
def blockMark (cs : List Char) : String :=
  let hint := if cs.head?.any fun c => c == ' ' || c == '\n' then "2" else ""
  let chomping :=
    if cs.getLast? != some '\n' then "-"
    else if cs.dropLast.getLast?.all (· == '\n') then "+"
    else ""
  "|" ++ hint ++ chomping

/-- The lines of a block. -/
def blockLines (cs : List Char) : List String :=
  let lines := cs.splitOn '\n'
  (if cs.getLast? = some '\n' then lines.dropLast else lines).map String.ofList

/-- Writes a text: its first line, and the lines of a block. -/
def textLines (s : String) : String × List String :=
  match styleOf s with
  | .plain => (s, [])
  | .single =>
    ("'" ++ String.ofList (s.toList.flatMap fun c => if c = '\'' then ['\'', '\''] else [c]) ++ "'",
      [])
  | .double => ("\"" ++ String.ofList (s.toList.flatMap escapeChar) ++ "\"", [])
  | .block => (blockMark s.toList, blockLines s.toList)

/-- A line two columns further right, unless it is empty. -/
def indented (line : String) : String := if line.isEmpty then line else "  " ++ line

/-- Lines behind a mark of two characters. -/
def behind (mark : String) (lines : List String) : List String :=
  match lines with
  | [] => [mark]
  | line :: rest => (mark ++ line) :: rest.map indented

/-- The longest key that stands on the line of its value, in bytes. -/
def maxKeySize : Nat := 128

/-- The key stands on the line of its value. -/
def isSimpleKey (key : String) : Bool :=
  !key.toList.any breaksLine && key.utf8ByteSize ≤ maxKeySize

mutual

/-- The lines of a value. -/
def lines (v : Json) : List String :=
  match v with
  | .null => ["null"]
  | .bool true => ["true"]
  | .bool false => ["false"]
  | .number (.int n) => [String.ofList (Json.intChars n)]
  | .number (.float x) => [String.ofList (numberLayout.text x)]
  | .string s =>
    let (line, rest) := textLines s
    line :: rest
  | .array [] => ["[]"]
  | .array (x :: xs) => itemLines (x :: xs)
  | .object [] => ["\x7b\x7d"]
  | .object (e :: es) => entryLines (e :: es)

/-- The lines of the items of a sequence. -/
def itemLines (items : List Json) : List String :=
  match items with
  | [] => []
  | x :: xs => behind "- " (lines x) ++ itemLines xs

/-- The lines of the entries of a mapping. -/
def entryLines (entries : List (String × Json)) : List String :=
  match entries with
  | [] => []
  | (key, v) :: rest =>
    let (keyLine, keyRest) := textLines key
    let own := lines v
    let entry :=
      if isSimpleKey key then
        match v with
        | .array (_ :: _) => (keyLine ++ ":") :: own
        | .object (_ :: _) => (keyLine ++ ":") :: own.map indented
        | _ => behind (keyLine ++ ": ") own
      else behind "? " (keyLine :: keyRest) ++ behind ": " own
    entry ++ entryLines rest

end

/-- The lines of a whole text. -/
def documentLines (v : Json) : List String :=
  match v with
  | .string s =>
    let (line, rest) := textLines s
    line :: rest.map indented
  | v => lines v

end ApiCommand.Yaml

/-- The YAML text of a value. -/
def ApiCommand.Json.yaml (v : ApiCommand.Json) : String :=
  String.join ((ApiCommand.Yaml.documentLines v).map fun line => line ++ "\n")
