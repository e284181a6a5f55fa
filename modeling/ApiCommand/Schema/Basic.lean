import ApiCommand.Json.Basic

/-!
# Schemas

The part of JSON Schema that operations are described with. Properties are a dictionary, so
everything that is done for each property is done by ascending name.
-/

namespace ApiCommand

/-- The description of a value. -/
structure Schema where
  /-- The names of the admitted types. An untyped schema has none. -/
  types : List String := []
  /-- What the properties of an object have to conform to. -/
  properties : List (String × Schema) := []
  /-- The properties that an object has to have. -/
  required : List String := []
  /-- What the items of an array have to conform to. -/
  items : Option Schema := none
  /-- The admitted values; an empty list admits all. -/
  enumValues : List Json := []
  /-- Stands in for an absent value. -/
  defaultValue : Option Json := none
  /-- A value for usage examples. -/
  exampleValue : Option Json := none
  /-- A short name. -/
  title : Option String := none
  /-- A longer description. -/
  description : Option String := none
  /-- A hint at how a text is to be read. -/
  format : Option String := none
  /-- A boolean or a schema for properties that are not declared; only `false` has an effect. -/
  additional : Option Json := none
  /-- The value may be null. -/
  nullable : Bool := false
  /-- Members of the schema's document that have no meaning here. -/
  extensions : List (String × Json) := []
  deriving Inhabited

namespace Schema

/-- A schema with one type. -/
def ofType (name : String) : Schema := { types := [name] }

/-- A schema of texts. -/
def string : Schema := ofType "string"

/-- A schema of integers. -/
def integer : Schema := ofType "integer"

/-- A schema of numbers. -/
def number : Schema := ofType "number"

/-- A schema of truth values. -/
def boolean : Schema := ofType "boolean"

/-- The schema of null. -/
def null : Schema := { types := ["null"], nullable := true }

/-- A schema of arrays with the given items. -/
def array (items : Schema) : Schema := { types := ["array"], items := some items }

/-- A schema of objects with the given properties and no others. -/
def object (properties : Dict Schema) (required : List String) : Schema :=
  { types := ["object"], properties, required, additional := some (.bool false) }

/-- The schema of the empty object. -/
def emptyObject : Schema := object [] []

/-- The schema admits the type. -/
def hasType (s : Schema) (name : String) : Bool := s.types.contains name

/-- The first type that is not null, or null if there is no other. -/
def primaryType? (s : Schema) : Option String :=
  (s.types.find? fun t => t != "null").or s.types.head?

/-- The schema admits objects. -/
def isObject (s : Schema) : Bool := s.hasType "object"

/-- The schema admits arrays. -/
def isArray (s : Schema) : Bool := s.hasType "array"

/-- The property has to be present. -/
def requires (s : Schema) (property : String) : Bool := s.required.contains property

/-- The schema of a declared property. -/
def property? (s : Schema) (name : String) : Option Schema := Dict.get? s.properties name

/-- Properties that are not declared are admitted. -/
def isOpen (s : Schema) : Bool :=
  match s.additional with
  | some (.bool false) => false
  | _ => true

/-- The title or else the description, whichever is there and not empty. -/
def summary? (s : Schema) : Option String :=
  (s.title.filter fun t => !t.isEmpty).or (s.description.filter fun t => !t.isEmpty)

end Schema

end ApiCommand
