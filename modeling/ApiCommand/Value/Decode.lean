import ApiCommand.Host.PathExpansion
import ApiCommand.Json.Reader
import ApiCommand.Schema.Basic
import ApiCommand.Text.Ascii
import ApiCommand.Unicode.WhiteSpace

/-!
# Values from texts

`Schema.decode` reads the text given for a value. `@path` stands for the JSON in a file and `%path`
for the text of a file. Otherwise the primary type of the schema decides. A text for an array adds
one item to the current value, and a text `key=value` for an object sets one member, unless the text
is a JSON array or object, which replaces the current value.
-/

namespace ApiCommand

/-- Why a text cannot be read as a value. -/
inductive DecodeFault where
  /-- The path of a file cannot be expanded. -/
  | unexpandable (path : String) (cause : UnsetVariable)
  /-- The file cannot be read. -/
  | unreadable (path : String) (cause : FileFault)
  /-- The file does not contain JSON, about which the reader may have more to say. -/
  | notJson (path : String) (complaint : Option String)
  /-- The text is not what the schema asks for. -/
  | expected (what : String) (raw : String)

/-- The wording of a fault. -/
def DecodeFault.message (f : DecodeFault) : String :=
  match f with
  | unexpandable path cause => "cannot expand path '" ++ path ++ "': " ++ cause.message
  | unreadable path cause => "cannot read file '" ++ path ++ "': " ++ cause.message
  | notJson path complaint =>
    "file '" ++ path ++ "' does not contain valid JSON" ++
      (complaint.map fun text => ": " ++ text).getD ""
  | expected what raw => "expected " ++ what ++ ", got '" ++ raw ++ "'"

namespace Host

/-- The text of the file behind a path that a user wrote. -/
def readValueFile (host : Host) (path : String) : Except DecodeFault String :=
  match host.expandPath path with
  | .error cause => .error (.unexpandable path cause)
  | .ok expanded =>
    match host.textOf expanded with
    | .error cause => .error (.unreadable expanded cause)
    | .ok text => .ok text

end Host

namespace Value

/-- A truth word. -/
def truth? (raw : String) : Option Bool :=
  let word := Text.asciiLower (Unicode.trimText raw)
  if word ∈ ["true", "t", "1", "yes"] then some true
  else if word ∈ ["false", "f", "0", "no"] then some false
  else none

/-- Cuts a text behind its first quote that is not escaped. A backslash that is not escaped itself
escapes the character behind it, and `escaped` says whether one stands in front of the text. -/
def cutQuote (escaped : Bool) (cs : List Char) : Option (List Char × List Char) :=
  match cs with
  | [] => none
  | c :: rest =>
    if c == '"' && !escaped then some ([c], rest)
    else (cutQuote (c == '\\' && !escaped) rest).map fun (start, rest) => (c :: start, rest)

/-- The key and the value of a text `key=value`. A key in quotes is a JSON string and may contain
`=`; any other key must not be empty. -/
def splitPair (raw : String) : Option (String × String) :=
  match raw.toList with
  | '"' :: cs =>
    match cutQuote false cs with
    | none => none
    | some (literal, rest) =>
      match Json.readString literal, rest with
      | some (key, []), '=' :: value => some (String.ofList key, String.ofList value)
      | _, _ => none
  | cs =>
    match Text.cut '=' cs with
    | some (c :: key, value) => some (String.ofList (c :: key), String.ofList value)
    | _ => none

/-- The text starts with a character, apart from white space. -/
def opensWith (c : Char) (raw : String) : Bool :=
  (Unicode.trimStart raw.toList).head? == some c

/-- The items of the current value; none if it is no array. -/
def currentItems (current : Option Json) : List Json :=
  match current with
  | some (.array items) => items
  | _ => []

/-- The members of the current value; none if it is no object. -/
def currentMembers (current : Option Json) : Dict Json :=
  match current with
  | some (.object members) => members
  | _ => []

/-- Reads a JSON array. -/
def arrayLiteral (raw : String) : Except DecodeFault Json :=
  match Json.parse? raw with
  | some (.array items) => .ok (.array items)
  | _ => .error (.expected "JSON array" raw)

/-- Reads a JSON object. -/
def objectLiteral (raw : String) : Except DecodeFault Json :=
  match Json.parse? raw with
  | some (.object members) => .ok (.object members)
  | _ => .error (.expected "JSON object" raw)

/-- Reads a value of a type other than array and object. -/
def scalar (type : Option String) (raw : String) : Except DecodeFault Json :=
  let word := Unicode.trim raw.toList
  match type with
  | some "string" => .ok (.string raw)
  | some "integer" =>
    match Text.int64? word with
    | some n => .ok (.int n)
    | none => .error (.expected "integer" raw)
  | some "number" =>
    match Text.decimal? word with
    | some x => .ok (.number (.float x))
    | none => .error (.expected "number" raw)
  | some "boolean" =>
    match truth? raw with
    | some b => .ok (.bool b)
    | none => .error (.expected "boolean" raw)
  | some "null" =>
    if word = ['n', 'u', 'l', 'l'] then .ok .null else .error (.expected "null" raw)
  | _ => .ok (Json.parseLoose raw)

end Value

namespace Schema

open Value

mutual

/-- Reads the text given for a value, of which `current` is what is there already. -/
def decode (host : Host) (s : Schema) (current : Option Json) (raw : String) :
    Except DecodeFault Json :=
  match s with
  | ⟨_, properties, _, items, _, _, _, _, _, _, _, _, _⟩ =>
    match raw.toList with
    | '@' :: path => do
      let path := String.ofList path
      let text ← host.readValueFile path
      match Json.parse? text with
      | some v => .ok v
      | none => .error (.notJson path (host.jsonComplaint? text))
    | '%' :: path => do
      let text ← host.readValueFile (String.ofList path)
      .ok (.string text)
    | _ =>
      let primary := s.primaryType?
      if primary = some "array" then
        if opensWith '[' raw then arrayLiteral raw
        else do
          let item ← decodeItem host items raw
          .ok (.array (currentItems current ++ [item]))
      else if primary = some "object" then
        if opensWith '{' raw then objectLiteral raw
        else
          match splitPair raw with
          | none => .error (.expected "JSON object or key=value" raw)
          | some (key, text) => do
            let item ← decodeProperty host properties key text
            .ok (.object (Dict.insert (currentMembers current) key item))
      else scalar primary raw

/-- Reads an item of an array. -/
def decodeItem (host : Host) (items : Option Schema) (raw : String) : Except DecodeFault Json :=
  match items with
  | none => .ok (Json.parseLoose raw)
  | some s => decode host s none raw

/-- Reads the value of a member of an object. -/
def decodeProperty (host : Host) (properties : List (String × Schema)) (key raw : String) :
    Except DecodeFault Json :=
  match properties with
  | [] => .ok (Json.parseLoose raw)
  | (name, s) :: rest =>
    if name = key then decode host s none raw else decodeProperty host rest key raw

end

end Schema

end ApiCommand
