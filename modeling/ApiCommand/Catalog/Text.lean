import ApiCommand.Catalog.Basic
import ApiCommand.Error.Basic
import ApiCommand.Yaml.Document
import ApiCommand.Yaml.Shape

/-!
# Catalog texts

A catalog is written in YAML. The shapes of its records say where plain scalars stand for the text
they are written with and where they have values of their own.
-/

namespace ApiCommand

/-- The records of a catalog. -/
inductive CatalogRecord where
  | catalog | operation | parameter | schema | link

namespace CatalogRecord

open Yaml (Shape RecordShape)

/-- A text or null. -/
def optionalText : Shape CatalogRecord := .optional .text

/-- A schema or null. -/
def optionalSchema : Shape CatalogRecord := .optional (.record schema)

/-- Anything, null standing for nothing. -/
def optionalValue : Shape CatalogRecord := .optional .any

/-- The fields of a record. -/
def shape (r : CatalogRecord) : RecordShape CatalogRecord :=
  match r with
  | catalog =>
    { isOpen := false
      fields :=
        [("name", .text), ("version", optionalText), ("baseUrl", optionalText),
          ("extensionPrefix", .text), ("configs", optionalSchema),
          ("operations", .list (.record operation))] }
  | operation =>
    { isOpen := false
      fields :=
        [("id", .text), ("name", optionalText), ("method", .text), ("path", .text),
          ("description", optionalText), ("parameters", .list (.record parameter)),
          ("requestBody", optionalSchema), ("configs", optionalSchema),
          ("positionalArgs", .list .text), ("hiddenFlags", .list .text),
          ("links", .dict (.record link))] }
  | parameter =>
    { isOpen := false
      fields :=
        [("name", .text), ("in", .text), ("required", .truth), ("description", optionalText),
          ("schema", .record schema)] }
  | schema =>
    { isOpen := true
      fields :=
        [("type", .free), ("properties", .dict (.record schema)), ("required", .list .text),
          ("items", optionalSchema), ("enum", .list .any), ("default", optionalValue),
          ("example", optionalValue), ("title", optionalText), ("description", optionalText),
          ("format", optionalText), ("additionalProperties", optionalValue),
          ("nullable", .truth)] }
  | link =>
    { isOpen := true
      fields :=
        [("name", .text), ("description", optionalText), ("operationId", optionalText),
          ("operationRef", optionalText), ("parameters", .dict .any)] }

end CatalogRecord

namespace CatalogDocument

/-- Reads a catalog as it is written down. -/
def ofText? (text : String) : Option CatalogDocument := do
  let node ← Yaml.parse? text
  let v ← node.toJson? CatalogRecord.shape Yaml.maxDepth (.record .catalog)
  ofJson? v

/-- Reads a catalog in which no two operations share an identifier or a name. -/
def parse (text : String) : Except Error CatalogDocument :=
  match ofText? text with
  | none => .error (.malformed .yaml "the text is not a catalog")
  | some d => d.checked.mapError Error.fault

end CatalogDocument

end ApiCommand
