import ApiCommand.Json.Basic
import ApiCommand.Text.Numeral

/-!
# JSON pointers

A pointer is a list of tokens. Its text is a slash and the escaped token for each of them, possibly
after one `#`. Reading a value (`Json.at?`) takes array indices without sign and leading zeros.
Writing (`Json.write`) creates the objects that are missing on the way, and appends to an array at
the token `-` or at the index behind its last item. The empty pointer merges an object into an
object.
-/

namespace ApiCommand

namespace Pointer

/-- Escapes a token: `~` as `~0` and `/` as `~1`. -/
def escapeChars (token : List Char) : List Char :=
  token.flatMap fun c => if c = '~' then ['~', '0'] else if c = '/' then ['~', '1'] else [c]

/-- Escapes a token. -/
def escape (token : String) : String := String.ofList (escapeChars token.toList)

/-- Reads an escaped token; every `~` has to be followed by `0` or `1`. -/
def unescape? (cs : List Char) : Option (List Char) :=
  match cs with
  | [] => some []
  | '~' :: '0' :: rest => (unescape? rest).map ('~' :: ·)
  | '~' :: '1' :: rest => (unescape? rest).map ('/' :: ·)
  | c :: rest => if c = '~' then none else (unescape? rest).map (c :: ·)

/-- Reads a list of escaped tokens. -/
def unescapeAll? (parts : List (List Char)) : Option (List String) :=
  match parts with
  | [] => some []
  | part :: parts => do
    let token ← unescape? part
    let tokens ← unescapeAll? parts
    some (String.ofList token :: tokens)

/-- The tokens of the text of a pointer, without the `#` in front. -/
def tokensOf? (cs : List Char) : Option (List String) :=
  match cs with
  | [] => some []
  | '/' :: rest => unescapeAll? (rest.splitOn '/')
  | _ => none

/-- The tokens of the text of a pointer. -/
def parse? (s : String) : Option (List String) :=
  match s.toList with
  | '#' :: rest => tokensOf? rest
  | cs => tokensOf? cs

/-- The text of a pointer, without a `#` in front. -/
def text (tokens : List String) : String :=
  String.ofList (tokens.flatMap fun token => '/' :: escapeChars token.toList)

/-- The index that a token denotes in reading: digits without a leading zero. -/
def readIndex? (token : String) : Option Nat :=
  match token.toList with
  | '0' :: _ :: _ => none
  | '+' :: _ => none
  | cs => Text.word64? cs

/-- Reads an escaped token, taking every `~` that starts no escape for itself. -/
def unescapeLoose (cs : List Char) : List Char :=
  match cs with
  | [] => []
  | '~' :: '0' :: rest => '~' :: unescapeLoose rest
  | '~' :: '1' :: rest => '/' :: unescapeLoose rest
  | c :: rest => c :: unescapeLoose rest

/-- The tokens of a pointer that values are read at; it has no `#` in front. -/
def readTokens? (s : String) : Option (List String) :=
  match s.toList with
  | [] => some []
  | '/' :: rest => some ((rest.splitOn '/').map fun part => String.ofList (unescapeLoose part))
  | _ => none

/-- Why a value cannot be written. -/
inductive Obstacle where
  /-- Only an object can be merged into the whole document, which has to be an object. -/
  | notAnObjectAtRoot
  /-- The way to the place runs through a value that is no container. -/
  | cannotDescend (found : Json.Kind) (token : String)
  /-- The place itself would be in a value that is no container. -/
  | cannotSet (found : Json.Kind) (token : String)
  /-- The index lies beyond the place behind the last item. -/
  | outOfBounds (index length : Nat)
  /-- The token is no index of an array. -/
  | notAnIndex (token : String)
  deriving DecidableEq

/-- The wording of an obstacle. -/
def Obstacle.message (o : Obstacle) : String :=
  match o with
  | notAnObjectAtRoot => "only an object can be written at the document root"
  | cannotDescend found token => "cannot descend into " ++ found.phrase ++ " at '" ++ token ++ "'"
  | cannotSet found token => "cannot set '" ++ token ++ "' on " ++ found.phrase
  | outOfBounds index length =>
    "index " ++ toString index ++ " is out of bounds for an array of " ++ toString length ++
      " items"
  | notAnIndex token => "'" ++ token ++ "' is not an array index"

/-- The index that a token denotes in writing to an array of `length` items. The index `length`
itself, also written `-`, is the place behind the last item. -/
def writeIndex (token : String) (length : Nat) : Except Obstacle Nat :=
  if token = "-" then .ok length
  else
    match Text.word64? token.toList with
    | none => .error (.notAnIndex token)
    | some index => if index ≤ length then .ok index else .error (.outOfBounds index length)

end Pointer

namespace Json

/-- The value at a pointer. -/
def at? (tokens : List String) (v : Json) : Option Json :=
  match tokens with
  | [] => some v
  | token :: tokens =>
    match v with
    | object members => (Dict.get? members token).bind (at? tokens)
    | array items => ((Pointer.readIndex? token).bind fun i => items[i]?).bind (at? tokens)
    | _ => none

/-- Replaces the item at an index, or appends it behind the last item. -/
def putItem (items : List Json) (index : Nat) (item : Json) : List Json :=
  if index < items.length then items.set index item else items ++ [item]

/-- Writes `item` at a pointer of at least one token. -/
def writeBelow (v : Json) (token : String) (tokens : List String) (item : Json) :
    Except Pointer.Obstacle Json :=
  match tokens with
  | [] =>
    match v with
    | object members => .ok (object (Dict.insert members token item))
    | array items => do
      let index ← Pointer.writeIndex token items.length
      .ok (array (putItem items index item))
    | v => .error (.cannotSet v.kind token)
  | next :: tokens =>
    match v with
    | object members => do
      let inner ← writeBelow ((Dict.get? members token).getD emptyObject) next tokens item
      .ok (object (Dict.insert members token inner))
    | array items => do
      let index ← Pointer.writeIndex token items.length
      let inner ← writeBelow (items[index]?.getD emptyObject) next tokens item
      .ok (array (putItem items index inner))
    | v => .error (.cannotDescend v.kind token)

/-- Writes `item` at a pointer. -/
def write (v : Json) (tokens : List String) (item : Json) : Except Pointer.Obstacle Json :=
  match tokens with
  | [] =>
    match v, item with
    | object members, object new => .ok (object (Dict.extend members new))
    | _, _ => .error .notAnObjectAtRoot
  | token :: tokens => writeBelow v token tokens item

end Json

end ApiCommand
