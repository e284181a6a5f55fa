/-!
# Cutting texts

Texts are cut at single characters. `cut` stops at the first occurrence, `List.splitOn` of the core
library cuts at every one.
-/

namespace ApiCommand.Text

/-- The parts before and after the first occurrence of `sep`, if there is one. -/
def cut (sep : Char) (cs : List Char) : Option (List Char × List Char) :=
  match cs with
  | [] => none
  | c :: rest =>
    if c = sep then some ([], rest)
    else (cut sep rest).map fun parts => (c :: parts.1, parts.2)

/-- `cut` on strings. -/
def cutText (sep : Char) (s : String) : Option (String × String) :=
  (cut sep s.toList).map fun parts => (String.ofList parts.1, String.ofList parts.2)

/-- What follows `start` in a text that begins with it. -/
def after? (start : List Char) (cs : List Char) : Option (List Char) :=
  match start, cs with
  | [], cs => some cs
  | a :: start, c :: cs => if a = c then after? start cs else none
  | _ :: _, [] => none

/-- The pieces of a string between the occurrences of `sep`. -/
def pieces (sep : Char) (s : String) : List String :=
  (s.toList.splitOn sep).map String.ofList

/-- One list of characters occurs in another. -/
def occurs (part : List Char) (cs : List Char) : Bool :=
  part.isPrefixOf cs ||
    match cs with
    | [] => false
    | _ :: rest => occurs part rest

/-- Replaces every occurrence of `part`, found from left to right without overlap; `part` is not
empty. -/
def replace (part image : List Char) (cs : List Char) : List Char :=
  replaceFrom part image 0 cs
where
  /-- Replaces in `cs` after skipping its first `skip` characters, which are part of an occurrence
  that was replaced already. -/
  replaceFrom (part image : List Char) (skip : Nat) (cs : List Char) : List Char :=
    match skip, cs with
    | _, [] => []
    | skip + 1, _ :: rest => replaceFrom part image skip rest
    | 0, c :: rest =>
      if part.isPrefixOf (c :: rest) then image ++ replaceFrom part image (part.length - 1) rest
      else c :: replaceFrom part image 0 rest

/-- The lines of a text, without their line ends; a line feed at the very end starts no line, and a
carriage return before a line feed belongs to the line end. -/
def lines (s : String) : List String :=
  let parts := s.toList.splitOn '\n'
  let closed := parts.dropLast.map fun line =>
    if line.getLast? = some '\r' then line.dropLast else line
  let last := match parts.getLast? with
    | none => []
    | some [] => []
    | some line => [line]
  (closed ++ last).map String.ofList

end ApiCommand.Text
