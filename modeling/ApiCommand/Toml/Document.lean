import ApiCommand.Toml.Scalar
import ApiCommand.Toml.Table
import ApiCommand.Toml.Text

/-!
# TOML documents

`Toml.parse?` reads a document: a line is empty, a header in brackets or a key with a value. Arrays
and inline tables may go over several lines and end with a comma.
-/

namespace ApiCommand.Toml

/-- Containers may be nested this deep. -/
def maxDepth : Nat := 80

mutual

/-- Reads a value. -/
def readValue (fuel depth : Nat) (cs : List Char) : Option (Json × List Char) :=
  match fuel, depth with
  | 0, _ | _, 0 => none
  | fuel + 1, depth + 1 =>
    match cs with
    | '"' :: _ => (readString '"' cs).map fun e => (.string e.1, e.2)
    | '\'' :: _ => (readString '\'' cs).map fun e => (.string e.1, e.2)
    | '[' :: rest => (readItems fuel depth rest).map fun e => (.array e.1, e.2)
    | '\x7b' :: rest => (readEntries fuel depth [] rest).map fun e => (e.1.toJson, e.2)
    | cs =>
      let word := wordAt cs
      (scalar? word).map fun v => (v, cs.drop word.length)

/-- Reads items and the closing bracket. -/
def readItems (fuel depth : Nat) (cs : List Char) : Option (List Json × List Char) :=
  match fuel with
  | 0 => none
  | fuel + 1 => do
    match ← skipLines (cs.length + 1) cs with
    | ']' :: rest => some ([], rest)
    | start =>
      let (item, rest) ← readValue fuel depth start
      match ← skipLines (rest.length + 1) rest with
      | ',' :: rest =>
        let (items, rest) ← readItems fuel depth rest
        some (item :: items, rest)
      | ']' :: rest => some ([item], rest)
      | _ => none

/-- Reads entries of an inline table and the closing brace. -/
def readEntries (fuel depth : Nat) (entries : Entries) (cs : List Char) :
    Option (Entries × List Char) :=
  match fuel with
  | 0 => none
  | fuel + 1 => do
    match ← skipLines (cs.length + 1) cs with
    | '\x7d' :: rest => some (entries, rest)
    | start =>
      let (path, rest) ← readKey (start.length + 1) start
      match rest with
      | '=' :: rest =>
        let (v, rest) ← readValue fuel depth (skipBlanks rest)
        let entries ← entries.set path v
        match ← skipLines (rest.length + 1) rest with
        | ',' :: rest => readEntries fuel depth entries rest
        | '\x7d' :: rest => some (entries, rest)
        | _ => none
      | _ => none

end

/-- A document that is being read: all entries, and the path of the table that is open. -/
structure Draft where
  root : Entries := []
  path : List String := []

namespace Draft

/-- The document after a header of a table, or of one of several tables, was read. -/
def openPath (d : Draft) (path : List String) (further : Bool) : Option Draft := do
  let key ← path.getLast?
  let change := if further then Entries.openFurther key else Entries.openTable key
  let root ← d.root.within path.dropLast change
  some { root, path }

/-- The document after a key and its value were read. -/
def set (d : Draft) (path : List String) (v : Json) : Option Draft := do
  let root ← d.root.within d.path (Entries.set path v)
  some { d with root }

end Draft

/-- Reads a header or a key with a value. -/
def readStatement (d : Draft) (cs : List Char) : Option (Draft × List Char) := do
  let size := cs.length + 1
  match cs with
  | '[' :: '[' :: rest =>
    let (path, rest) ← readKey size rest
    match rest with
    | ']' :: ']' :: rest => (d.openPath path true).map fun d => (d, rest)
    | _ => none
  | '[' :: rest =>
    let (path, rest) ← readKey size rest
    match rest with
    | ']' :: rest => (d.openPath path false).map fun d => (d, rest)
    | _ => none
  | cs =>
    let (path, rest) ← readKey size cs
    match rest with
    | '=' :: rest =>
      let (v, rest) ← readValue (2 * size) maxDepth (skipBlanks rest)
      (d.set path v).map fun d => (d, rest)
    | _ => none

/-- Reads statements, each on lines of its own. -/
def readStatements (fuel : Nat) (d : Draft) (cs : List Char) : Option Draft :=
  match fuel with
  | 0 => none
  | fuel + 1 => do
    match ← skipLines (cs.length + 1) cs with
    | [] => some d
    | start =>
      let (d, rest) ← readStatement d start
      match ← skipComment? (skipBlanks rest) with
      | [] => some d
      | rest =>
        let rest ← afterLineEnd? rest
        readStatements fuel d rest

/-- Marks the start of a text. -/
def byteOrderMark : Char := Char.ofNat 0xFEFF

/-- Reads a document. -/
def parse? (s : String) : Option Json :=
  let cs := s.toList
  let cs := if cs.head? = some byteOrderMark then cs.drop 1 else cs
  (readStatements (cs.length + 1) {} cs).map fun d => d.root.toJson

end ApiCommand.Toml
