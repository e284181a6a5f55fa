import ApiCommand.Yaml.Collection

/-!
# YAML documents

`Yaml.parse?` reads a text that consists of one document. Directives may stand in front of it, if
its start is marked then.
-/

namespace ApiCommand.Yaml

/-- The words of a line. -/
def words (line : List Char) : List String :=
  ((line.splitBy fun a b => isBlank a == isBlank b).filter fun word =>
    !word.head?.any isBlank).map String.ofList

/-- The directive is known. -/
def isDirective (line : List Char) : Bool :=
  match words line with
  | ["%YAML", version] => version == "1.1" || version == "1.2"
  | ["%TAG", handle, _] => handle.toList.head? = some '!'
  | _ => false

/-- Moves past directives; the number of lines bounds how many there are. Whether there are some is
part of the answer. -/
def skipDirectives (lines : Nat) (c : Cursor) : Option (Bool × Cursor) :=
  match lines with
  | 0 => some (false, c)
  | lines + 1 =>
    if c.column = 0 ∧ c.looksAt ['%'] then
      let line := c.rest.takeWhile fun x => !isBreak x && x != '#'
      if isDirective line then do
        let (_, last) ← skipDirectives lines ((c.skip line.length).toToken false)
        some (true, last)
      else none
    else some (false, c)

/-- Nothing but marks of the end of a document follow. -/
def onlyEnds (fuel : Nat) (c : Cursor) : Bool :=
  match fuel with
  | 0 => false
  | fuel + 1 =>
    c.atEnd ||
      (c.atMarker && c.looksAt ['.'] && onlyEnds fuel ((c.skip 3).toToken false))

/-- Reads a text that consists of one document. A text without a document stands for nothing. -/
def parse? (s : String) : Option Node := do
  let size := s.length + 1
  let start ← Cursor.ofText? s
  let (directed, c) ← skipDirectives size (start.toToken false)
  let marked := c.atMarker && c.looksAt ['-']
  if directed && !marked then none
  else
    let c := if marked then ((c.skip 3).withFresh false).toToken false else c
    let (n, last) ← readNode (4 * size + 16) (-1) false {} c
    if onlyEnds size last then some n else none

end ApiCommand.Yaml
