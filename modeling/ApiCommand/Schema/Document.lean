import ApiCommand.Json.Decode
import ApiCommand.Schema.Basic

/-!
# Schemas as JSON

`Schema.ofJson?` reads a schema from a JSON object and `Schema.toJson` writes it. Empty lists,
absent values and `false` are left out; a single type is written as a text and several as an array.
Members that name no part of a schema are its extensions.
-/

namespace ApiCommand.Schema

/-- Reads the admitted types: one name or a list of names. -/
def typesOf? (v : Json) : Option (List String) :=
  match v with
  | .string name => some [name]
  | v => v.texts?

/-- Adds a member of the document to a schema, unless it holds schemas itself. -/
def addMember? (s : Schema) (key : String) (v : Json) : Option Schema :=
  if key = "type" then (typesOf? v).map fun types => { s with types }
  else if key = "required" then v.texts?.map fun required => { s with required }
  else if key = "enum" then v.asArray?.map fun enumValues => { s with enumValues }
  else if key = "default" then some { s with defaultValue := v.notNull? }
  else if key = "example" then some { s with exampleValue := v.notNull? }
  else if key = "title" then (optionalText? v).map fun title => { s with title }
  else if key = "description" then (optionalText? v).map fun description => { s with description }
  else if key = "format" then (optionalText? v).map fun format => { s with format }
  else if key = "additionalProperties" then some { s with additional := v.notNull? }
  else if key = "nullable" then v.asBool?.map fun nullable => { s with nullable }
  else some { s with extensions := Dict.insert s.extensions key v }
where
  /-- Reads a text or null. -/
  optionalText? (v : Json) : Option (Option String) :=
    match v with
    | .null => some none
    | v => v.asString?.map some

mutual

/-- Reads a schema. -/
def ofJson? (v : Json) : Option Schema :=
  match v with
  | .object members => ofMembers? members
  | _ => none

/-- Reads a schema from the members of its document. -/
def ofMembers? (members : List (String × Json)) : Option Schema :=
  match members with
  | [] => some {}
  | (key, v) :: rest => do
    let s ← ofMembers? rest
    if key = "properties" then
      match v with
      | .object schemas => (ofEach? schemas).map fun properties => { s with properties }
      | _ => none
    else if key = "items" then
      match v with
      | .null => some { s with items := none }
      | v => (ofJson? v).map fun items => { s with items := some items }
    else addMember? s key v

/-- Reads the schemas of properties. -/
def ofEach? (schemas : List (String × Json)) : Option (List (String × Schema)) :=
  match schemas with
  | [] => some []
  | (name, v) :: rest => do
    let schema ← ofJson? v
    let rest ← ofEach? rest
    some (Dict.insert rest name schema)

end

/-- Writes the admitted types. -/
def typesJson (types : List String) : Json :=
  match types with
  | [name] => .string name
  | types => Json.strings types

/-- The members of a schema's document, apart from those that hold schemas. -/
def plainMembers (s : Schema) : List (String × Json) :=
  (if s.types.isEmpty then [] else [("type", typesJson s.types)]) ++
    Json.textsMember "required" s.required ++
    (if s.enumValues.isEmpty then [] else [("enum", .array s.enumValues)]) ++
    Json.valueMember "default" s.defaultValue ++
    Json.valueMember "example" s.exampleValue ++
    Json.textMember "title" s.title ++
    Json.textMember "description" s.description ++
    Json.textMember "format" s.format ++
    Json.valueMember "additionalProperties" s.additional ++
    (if s.nullable then [("nullable", .bool true)] else []) ++
    s.extensions

mutual

/-- Writes a schema. -/
def toJson (s : Schema) : Json :=
  match s with
  | ⟨_, properties, _, items, _, _, _, _, _, _, _, _, _⟩ =>
    Json.ofMembers (propertiesMember properties ++ itemsMember items ++ plainMembers s)

/-- The declared properties as a member, unless there are none. -/
def propertiesMember (properties : List (String × Schema)) : List (String × Json) :=
  match properties with
  | [] => []
  | e :: rest => [("properties", .object (eachToJson (e :: rest)))]

/-- The schema of items as a member, unless it is absent. -/
def itemsMember (items : Option Schema) : List (String × Json) :=
  match items with
  | none => []
  | some s => [("items", toJson s)]

/-- Writes the schemas of properties. -/
def eachToJson (schemas : List (String × Schema)) : List (String × Json) :=
  match schemas with
  | [] => []
  | (name, s) :: rest => (name, toJson s) :: eachToJson rest

end

end ApiCommand.Schema
