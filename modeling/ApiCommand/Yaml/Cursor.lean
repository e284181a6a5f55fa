import ApiCommand.Yaml.Node

/-!
# Places in a YAML text

`Cursor` is a place in a text that is being read: what follows, the line and the column, the nodes
with anchors so far, and whether a key may start here. `Cursor.toToken` moves on over blanks,
comments and line breaks. All moves are made by `Cursor.skip`, which drops characters
(`rest_skip`).
-/

namespace ApiCommand.Yaml

/-- The character separates lines. Line ends are line feeds; two further separators are kept in
texts as they are. -/
def isBreak (c : Char) : Bool := c == '\n' || c.toNat == 0x2028 || c.toNat == 0x2029

/-- The character is a blank within a line. -/
def isBlank (c : Char) : Bool := c == ' ' || c == '\t'

/-- The character separates words. -/
def isSpace (c : Char) : Bool := isBlank c || isBreak c

/-- A text starts with a blank or a line break, or is at its end. -/
def startsBlank (cs : List Char) : Bool := cs.head?.all isSpace

/-- A place in a text. -/
structure Cursor where
  /-- What follows. -/
  rest : List Char
  /-- The number of line breaks before this place. -/
  line : Nat := 0
  /-- The number of characters before this place on its line. -/
  column : Nat := 0
  /-- The number of characters before this place. -/
  index : Nat := 0
  /-- A key, or the mark of an item, may start here. -/
  fresh : Bool := true
  /-- The nodes with anchors, the latest first. -/
  anchors : List (String × Node) := []

namespace Cursor

/-- Moves past one character. -/
def step (c : Cursor) : Cursor :=
  match c.rest with
  | [] => c
  | x :: rest =>
    if isBreak x then { c with rest, line := c.line + 1, column := 0, index := c.index + 1 }
    else { c with rest, column := c.column + 1, index := c.index + 1 }

/-- Moves past a number of characters. -/
def skip (n : Nat) (c : Cursor) : Cursor :=
  match n with
  | 0 => c
  | n + 1 => c.step.skip n

/-- A step drops one character of what is left. -/
theorem rest_step (c : Cursor) : c.step.rest = c.rest.drop 1 := by
  unfold step
  split
  · rename_i h
    simp [h]
  · rename_i h
    split <;> simp [h]

/-- Moving drops characters. -/
@[simp] theorem rest_skip (n : Nat) (c : Cursor) : (c.skip n).rest = c.rest.drop n := by
  induction n generalizing c with
  | zero => simp [skip]
  | succ n ih => simp [skip, ih, rest_step]

/-- Moves past characters as long as they have a property. -/
def skipWhile (p : Char → Bool) (c : Cursor) : Cursor := c.skip (c.rest.takeWhile p).length

/-- Nothing follows. -/
def atEnd (c : Cursor) : Bool := c.rest.isEmpty

/-- The characters follow. -/
def looksAt (part : List Char) (c : Cursor) : Bool := part.isPrefixOf c.rest

/-- The character follows, and nothing, a blank or a line break behind it. -/
def atIndicator (x : Char) (c : Cursor) : Bool :=
  c.looksAt [x] && startsBlank (c.rest.drop 1)

/-- The start or the end of a document is marked here. -/
def atMarker (c : Cursor) : Bool :=
  c.column == 0 && (c.looksAt ['-', '-', '-'] || c.looksAt ['.', '.', '.']) &&
    startsBlank (c.rest.drop 3)

/-- The document ends here. -/
def atClose (c : Cursor) : Bool := c.atEnd || c.atMarker

/-- The place with another answer to whether a key may start here. -/
def withFresh (fresh : Bool) (c : Cursor) : Cursor := { c with fresh }

/-- Moves past blanks. Where a key may start, tabs are no blanks. -/
def skipBlanks (inFlow : Bool) (c : Cursor) : Cursor :=
  c.skipWhile fun x => x == ' ' || (x == '\t' && (inFlow || !c.fresh))

/-- Moves past a comment. -/
def skipComment (c : Cursor) : Cursor :=
  if c.looksAt ['#'] then c.skipWhile fun x => !isBreak x else c

/-- Skipping never brings characters back. -/
theorem length_rest_skipWhile (p : Char → Bool) (c : Cursor) :
    (c.skipWhile p).rest.length ≤ c.rest.length := by
  simp [skipWhile]

/-- Skipping a comment does not either. -/
theorem length_rest_skipComment (c : Cursor) : c.skipComment.rest.length ≤ c.rest.length := by
  unfold skipComment
  split
  · exact length_rest_skipWhile _ c
  · exact Nat.le_refl _

/-- Moves to what is not blank, a comment or a line break. On a new line a key may start, unless the
line is inside of brackets. -/
def toToken (inFlow : Bool) (c : Cursor) : Cursor :=
  let next := (c.skipBlanks inFlow).skipComment
  if _h : next.rest.head?.any isBreak then
    toToken inFlow (next.step.withFresh (!inFlow || next.fresh))
  else next
termination_by c.rest.length
decreasing_by
  have h₁ : ((c.skipBlanks inFlow).skipComment).rest.length ≤ c.rest.length :=
    Nat.le_trans (length_rest_skipComment _) (length_rest_skipWhile _ c)
  have h₂ : 0 < ((c.skipBlanks inFlow).skipComment).rest.length := by
    cases hr : ((c.skipBlanks inFlow).skipComment).rest with
    | nil => simp [next, hr] at _h
    | cons x rest => simp
  simp [withFresh, rest_step]
  omega

/-- The node with an anchor. -/
def anchored? (c : Cursor) (name : String) : Option Node := c.anchors.lookup name

/-- Forgets an anchor, since a new node with it starts here. -/
def forget (name : String) (c : Cursor) : Cursor :=
  { c with anchors := c.anchors.filter fun e => e.1 != name }

/-- Notes the node with an anchor. -/
def note (name : String) (n : Node) (c : Cursor) : Cursor :=
  { c with anchors := (name, n) :: c.anchors }

end Cursor

/-! ## Texts -/

/-- The character may occur in a text. -/
def isReadable (c : Char) : Bool :=
  let n := c.toNat
  n == 0x9 || n == 0xA || n == 0xD || (0x20 ≤ n && n ≤ 0x7E) || n == 0x85 ||
    (0xA0 ≤ n && n ≤ 0xD7FF) || (0xE000 ≤ n && n ≤ 0xFFFD) || 0x10000 ≤ n

/-- The text with line feeds for all kinds of line ends. -/
def withLineFeeds (cs : List Char) : List Char :=
  match cs with
  | [] => []
  | '\r' :: '\n' :: rest => '\n' :: withLineFeeds rest
  | c :: rest => (if c == '\r' || c.toNat == 0x85 then '\n' else c) :: withLineFeeds rest

/-- Marks the start of a text. -/
def byteOrderMark : Char := Char.ofNat 0xFEFF

/-- The start of a text, if all of its characters may occur. -/
def Cursor.ofText? (s : String) : Option Cursor :=
  if s.toList.all isReadable then
    let cs := s.toList
    let cs := if cs.head? = some byteOrderMark then cs.drop 1 else cs
    some { rest := withLineFeeds cs }
  else none

end ApiCommand.Yaml
