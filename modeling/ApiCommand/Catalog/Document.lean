import ApiCommand.Exchange.Document
import ApiCommand.Link.Basic
import ApiCommand.Schema.Document

/-!
# Catalog documents

What is written down of the operations of a service, as records that can be read from JSON and
written back.
-/

namespace ApiCommand

/-- A parameter as it is written down. -/
structure ParameterSpec where
  name : String
  location : Location
  required : Bool := false
  description : Option String := none
  schema : Schema := {}

/-- An operation as it is written down. -/
structure OperationSpec where
  id : String
  /-- The name of the command; without it, the name follows from the identifier. -/
  name : Option String := none
  method : String
  path : String
  description : Option String := none
  parameters : List ParameterSpec := []
  /-- The schema of the body of the request. -/
  requestBody : Option Schema := none
  /-- Settings of the surroundings that this operation has. -/
  configs : Option Schema := none
  positionalArgs : List String := []
  hiddenFlags : List String := []
  links : Dict Link := []

/-- A catalog as it is written down. -/
structure CatalogDocument where
  name : String
  version : Option String := none
  baseUrl : Option String := none
  /-- The mark at the start of the names of extensions that have a meaning here. -/
  extensionPrefix : String
  /-- Settings of the surroundings that all operations have. -/
  configs : Option Schema := none
  operations : List OperationSpec := []

/-- The mark of extensions if a catalog does not name one. -/
def defaultExtensionMark : String := "x-relay"

/-- Writes a value or null. -/
def orNull {α : Type} (write : α → Json) (x : Option α) : Json := (x.map write).getD .null

namespace ParameterSpec

/-- The fields of a parameter. -/
def fields : List String := ["name", "in", "required", "description", "schema"]

/-- Reads a parameter. -/
def ofJson? (v : Json) : Option ParameterSpec := do
  let record ← v.recordOf? fields
  let name ← Json.required Json.asString? record "name"
  let location ← Json.required Location.ofJson? record "in"
  let required ← Json.defaulted Json.asBool? false record "required"
  let description ← Json.optional Json.asString? record "description"
  let schema ← Json.defaulted Schema.ofJson? {} record "schema"
  some { name, location, required, description, schema }

/-- Writes a parameter. -/
def toJson (p : ParameterSpec) : Json :=
  .ofMembers
    [("name", .string p.name), ("in", .string p.location.name), ("required", .bool p.required),
      ("description", .optionalString p.description), ("schema", p.schema.toJson)]

end ParameterSpec

namespace OperationSpec

/-- The fields of an operation. -/
def fields : List String :=
  ["id", "name", "method", "path", "description", "parameters", "requestBody", "configs",
    "positionalArgs", "hiddenFlags", "links"]

/-- Reads an operation. -/
def ofJson? (v : Json) : Option OperationSpec := do
  let record ← v.recordOf? fields
  let id ← Json.required Json.asString? record "id"
  let name ← Json.optional Json.asString? record "name"
  let method ← Json.required Json.asString? record "method"
  let path ← Json.required Json.asString? record "path"
  let description ← Json.optional Json.asString? record "description"
  let parameters ← Json.defaulted (Json.listOf? ParameterSpec.ofJson?) [] record "parameters"
  let requestBody ← Json.optional Schema.ofJson? record "requestBody"
  let configs ← Json.optional Schema.ofJson? record "configs"
  let positionalArgs ← Json.defaulted Json.texts? [] record "positionalArgs"
  let hiddenFlags ← Json.defaulted Json.texts? [] record "hiddenFlags"
  let links ← Json.defaulted (Json.dictOf? Link.ofJson?) [] record "links"
  some
    { id, name, method, path, description, parameters, requestBody, configs, positionalArgs
      hiddenFlags, links }

/-- Writes an operation. -/
def toJson (o : OperationSpec) : Json :=
  .ofMembers
    [("id", .string o.id), ("name", .optionalString o.name), ("method", .string o.method),
      ("path", .string o.path), ("description", .optionalString o.description),
      ("parameters", .array (o.parameters.map ParameterSpec.toJson)),
      ("requestBody", orNull Schema.toJson o.requestBody),
      ("configs", orNull Schema.toJson o.configs),
      ("positionalArgs", .strings o.positionalArgs), ("hiddenFlags", .strings o.hiddenFlags),
      ("links", .object (Dict.mapValues Link.toJson o.links))]

end OperationSpec

namespace CatalogDocument

/-- The fields of a catalog. -/
def fields : List String :=
  ["name", "version", "baseUrl", "extensionPrefix", "configs", "operations"]

/-- Reads a catalog. -/
def ofJson? (v : Json) : Option CatalogDocument := do
  let record ← v.recordOf? fields
  let name ← Json.required Json.asString? record "name"
  let version ← Json.optional Json.asString? record "version"
  let baseUrl ← Json.optional Json.asString? record "baseUrl"
  let extensionPrefix ←
    Json.defaulted Json.asString? defaultExtensionMark record "extensionPrefix"
  let configs ← Json.optional Schema.ofJson? record "configs"
  let operations ← Json.defaulted (Json.listOf? OperationSpec.ofJson?) [] record "operations"
  some { name, version, baseUrl, extensionPrefix, configs, operations }

/-- Writes a catalog. -/
def toJson (d : CatalogDocument) : Json :=
  .ofMembers
    [("name", .string d.name), ("version", .optionalString d.version),
      ("baseUrl", .optionalString d.baseUrl), ("extensionPrefix", .string d.extensionPrefix),
      ("configs", orNull Schema.toJson d.configs),
      ("operations", .array (d.operations.map OperationSpec.toJson))]

end CatalogDocument

end ApiCommand
