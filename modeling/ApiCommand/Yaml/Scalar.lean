import ApiCommand.Json.Reader
import ApiCommand.Yaml.Cursor

/-!
# YAML scalars

Readers for the text of a scalar: plain, in quotes, or as a block. In the first two a single line
break is a blank, and of several the first one is dropped; in a block it depends on the mark and on
whether lines start with a blank.
-/

namespace ApiCommand.Yaml

/-- The text for breaks between lines, the first of which stands for a blank or nothing. -/
def foldBreaks (breaks : List Char) : List Char :=
  match breaks with
  | ['\n'] => [' ']
  | '\n' :: more => more
  | breaks => breaks

/-- The text for blanks and breaks between words. -/
def foldGap (gap : List Char) : List Char :=
  if gap.any isBreak then foldBreaks (gap.filter isBreak) else gap

/-! ## Plain scalars -/

/-- The character has a meaning inside of brackets. -/
def isFlowIndicator (c : Char) : Bool := [',', '[', ']', '{', '}'].contains c

/-- The character has a meaning at the start of a node. -/
def isIndicator (c : Char) : Bool :=
  isFlowIndicator c ||
    ['-', '?', ':', '#', '&', '*', '!', '|', '>', '\'', '"', '%', '@', Char.ofNat 0x60].contains c

/-- A plain scalar may start here. -/
def startsPlain (inFlow : Bool) (cs : List Char) : Bool :=
  match cs with
  | [] => false
  | c :: rest =>
    if isSpace c then false
    else
      !isIndicator c || (c == '-' && !rest.head?.any isBlank) ||
        (!inFlow && (c == '?' || c == ':') && !startsBlank rest)

/-- The number of characters that the word here has. Inside of brackets a colon must not stand right
before a character that has a meaning there. -/
def wordLength? (inFlow : Bool) (cs : List Char) : Option Nat :=
  match cs with
  | [] => some 0
  | c :: rest =>
    if isSpace c then some 0
    else if inFlow && c == ':' && rest.head?.any fun d => d == '?' || isFlowIndicator d then none
    else if (c == ':' && startsBlank rest) || (inFlow && isFlowIndicator c) then some 0
    else (wordLength? inFlow rest).map (· + 1)

/-- A tab stands in front of a line, in a column up to `indent`. The column is `none` before the
first line break of a gap. -/
def tabIndents (indent : Int) (column : Option Nat) (gap : List Char) : Bool :=
  match gap with
  | [] => false
  | x :: gap =>
    if isBreak x then tabIndents indent (some 0) gap
    else
      (x == '\t' && column.any fun n => (n : Int) ≤ indent) ||
        tabIndents indent (column.map (· + 1)) gap

/-- Reads words and what is between them. Lines have to be indented more deeply than `indent`,
except inside of brackets. After a line break a key may start. -/
def readWords (inFlow : Bool) (indent : Int) (gap : List Char) (fuel : Nat) (c : Cursor) :
    Option (List Char × Cursor) :=
  let closed := some ([], c.withFresh (gap.any isBreak))
  match fuel with
  | 0 => none
  | fuel + 1 =>
    if c.atMarker || c.looksAt ['#'] then closed
    else
      match wordLength? inFlow c.rest with
      | none => none
      | some 0 => closed
      | some n =>
        let word := c.rest.take n
        let next := c.skip n
        let space := next.rest.takeWhile isSpace
        let after := next.skip space.length
        let start := foldGap gap ++ word
        -- A word that no blank follows ends at a character with a meaning of its own.
        if space.isEmpty then some (start, next.withFresh false)
        else if tabIndents indent none space then none
        -- The next line belongs to something further outside.
        else if !inFlow && (after.column : Int) ≤ indent then
          some (start, after.withFresh (space.any isBreak))
        else do
          let (text, last) ← readWords inFlow indent space fuel after
          some (start ++ text, last)

/-- Reads a plain scalar. -/
def readPlain (inFlow : Bool) (indent : Int) (c : Cursor) : Option (List Char × Cursor) :=
  readWords inFlow indent [] (c.rest.length + 1) c

/-! ## Scalars in quotes -/

/-- The character of a short escape. -/
def shortEscape? (c : Char) : Option Char :=
  [('0', 0x0), ('a', 0x7), ('b', 0x8), ('t', 0x9), ('\t', 0x9), ('n', 0xA), ('v', 0xB), ('f', 0xC),
    ('r', 0xD), ('e', 0x1B), (' ', 0x20), ('"', 0x22), ('/', 0x2F), ('\\', 0x5C), ('N', 0x85),
    ('_', 0xA0), ('L', 0x2028), ('P', 0x2029)].lookup c |>.map Char.ofNat

/-- The number of digits of an escape by code. -/
def escapeDigits? (c : Char) : Option Nat :=
  [('x', 2), ('u', 4), ('U', 8)].lookup c

/-- The number that hexadecimal digits denote. -/
def hexValue? (digits : List Char) : Option Nat :=
  digits.foldlM (fun n c => (Json.hexDigit? c).map fun d => 16 * n + d) 0

/-- The character of an escape by code. -/
def codeEscape? (digits : List Char) (count : Nat) : Option Char := do
  let n ← hexValue? digits
  if digits.length = count ∧ n.isValidChar then some (Char.ofNat n) else none

/-- The character of the escape at the start of a text, and its length. -/
def readEscape? (cs : List Char) : Option (Char × Nat) :=
  match cs with
  | [] => none
  | c :: rest =>
    match escapeDigits? c with
    | some count => (codeEscape? (rest.take count) count).map fun x => (x, count + 1)
    | none => (shortEscape? c).map fun x => (x, 1)

/-- Reads the rest of a scalar in quotes and the closing one. -/
def readQuoted (quote : Char) (fuel : Nat) (c : Cursor) : Option (List Char × Cursor) :=
  match fuel with
  | 0 => none
  | fuel + 1 =>
    if c.atMarker then none
    else
      match c.rest with
      | [] => none
      | x :: rest =>
        if isSpace x then do
          let gap := c.rest.takeWhile isSpace
          let (text, last) ← readQuoted quote fuel (c.skip gap.length)
          some (foldGap gap ++ text, last)
        else if x = quote then
          -- A single quote that is written twice stands for itself.
          if quote = '\'' ∧ rest.head? = some quote then do
            let (text, last) ← readQuoted quote fuel (c.skip 2)
            some (quote :: text, last)
          else some ([], (c.skip 1).withFresh false)
        else if x = '\\' ∧ quote = '"' then
          -- An escaped line break joins the lines without a blank.
          if rest.head?.any isBreak then do
            let gap := (rest.drop 1).takeWhile isSpace
            let (text, last) ← readQuoted quote fuel (c.skip (gap.length + 2))
            some (gap.filter isBreak ++ text, last)
          else do
            let (y, n) ← readEscape? rest
            let (text, last) ← readQuoted quote fuel (c.skip (n + 1))
            some (y :: text, last)
        else do
          let (text, last) ← readQuoted quote fuel (c.skip 1)
          some (x :: text, last)

/-! ## Blocks -/

/-- What a block does with the line breaks at its end. -/
inductive Chomping where
  /-- All are dropped. -/
  | strip
  /-- The first one is kept. -/
  | clip
  /-- All are kept. -/
  | keep
  deriving DecidableEq

/-- What the mark of a block says. -/
structure BlockMark where
  /-- Single line breaks stand for blanks. -/
  folded : Bool
  chomping : Chomping := .clip
  /-- How much deeper than its surroundings the block is indented, if the mark says so. -/
  increment : Option Nat := none

namespace BlockMark

/-- Reads what may follow the first character of a mark: a sign and a digit in either order, each at
most once. -/
def readHints (m : BlockMark) (cs : List Char) : Option (BlockMark × Nat) :=
  let sign? (c : Char) : Option Chomping :=
    if c = '+' then some .keep else if c = '-' then some .strip else none
  let digit? (c : Char) : Option Nat :=
    if c.isDigit then some (c.toNat - '0'.toNat) else none
  let checked (m : BlockMark) (n : Nat) : Option (BlockMark × Nat) :=
    if m.increment = some 0 then none else some (m, n)
  match cs.head?, (cs.drop 1).head? with
  | none, _ => some (m, 0)
  | some a, b =>
    match sign? a, digit? a, b.bind sign?, b.bind digit? with
    | some chomping, _, _, some n => checked { m with chomping, increment := some n } 2
    | some chomping, _, _, none => some ({ m with chomping }, 1)
    | none, some n, some chomping, _ => checked { m with chomping, increment := some n } 2
    | none, some n, none, _ => checked { m with increment := some n } 1
    | none, none, _, _ => some (m, 0)

end BlockMark

/-- Reads empty lines of a block and the indentation of the next line. Until the indentation of the
block is known, it is the widest one so far. -/
def readEmptyLines (indent : Option Nat) (widest fuel : Nat) (c : Cursor) :
    Option (List Char × Nat × Cursor) :=
  let isIndentation (blanks : Nat) : Bool := indent.all fun n => blanks < n
  let blanks := (c.rest.takeWhile (· == ' ')).length
  let count := match indent with
    | none => blanks
    | some n => min blanks (n - c.column)
  let next := c.skip count
  let widest := max widest next.column
  match fuel with
  | 0 => none
  | fuel + 1 =>
    if isIndentation next.column && next.looksAt ['\t'] then none
    else
      match next.rest with
      | [] => some ([], widest, next)
      | x :: _ =>
        if isBreak x then do
          let (breaks, widest, last) ← readEmptyLines indent widest fuel next.step
          some (x :: breaks, widest, last)
        else some ([], widest, next)

/-- What stands between two lines of a block: the break after the first one and the empty lines
behind it. -/
def blockGap (folded : Bool) (lineBreak breaks : List Char) : List Char :=
  if folded && lineBreak == ['\n'] then (if breaks.isEmpty then [' '] else breaks)
  else lineBreak ++ breaks

/-- Reads the lines of a block. `lineBreak` is the break after the last line and `breaks` are those
of the empty lines behind it. In a folded block, a line that starts with a blank keeps the breaks
around it. -/
def readLines (m : BlockMark) (indent : Nat) (blankBefore : Bool) (lineBreak breaks : List Char)
    (fuel : Nat) (c : Cursor) : Option (List Char × Cursor) :=
  match fuel with
  | 0 => none
  | fuel + 1 =>
    if c.column != indent || c.atEnd then
      some
        (match m.chomping with
          | .strip => []
          | .clip => lineBreak
          | .keep => lineBreak ++ breaks, c)
    else do
      let blank := c.rest.head?.any isBlank
      let gap := blockGap (m.folded && !blankBefore && !blank) lineBreak breaks
      let line := c.rest.takeWhile fun x => !isBreak x
      let c := c.skip line.length
      let lineBreak := c.rest.take 1
      let (breaks, _, c) ← readEmptyLines (some indent) 0 (c.rest.length + 1) c.step
      let (text, last) ← readLines m indent blank lineBreak breaks fuel c
      some (gap ++ line ++ text, last)

/-- Reads a block after the first character of its mark. Its lines are indented more deeply than
`indent`. -/
def readBlockText (folded : Bool) (indent : Int) (c : Cursor) : Option (List Char × Cursor) := do
  let (m, n) ← BlockMark.readHints ⟨folded, .clip, none⟩ c.rest
  let c := ((c.skip n).skipWhile isBlank).skipComment
  if !c.rest.head?.all isBreak then none
  else
    let c := c.step
    let base := indent.toNat
    let least := (indent + 1).toNat
    let (breaks, widest, c) ←
      readEmptyLines (m.increment.map (· + base)) 0 (c.rest.length + 1) c
    let depth := (m.increment.map (· + base)).getD (max 1 (max least widest))
    let (text, last) ← readLines m depth false [] breaks (c.rest.length + 1) c
    some (text, last.withFresh true)

end ApiCommand.Yaml
