import ApiCommand.Catalog.Operation
import ApiCommand.Error.Fault
import ApiCommand.Json.Pointer
import ApiCommand.Text.Ascii

/-!
# Catalogs

The operations of a service. An operation is found by its name, by its identifier or by a reference
that points to either its identifier or its path and method. In a checked document no two operations
share an identifier or a name.
-/

namespace ApiCommand

/-- The operations of a service. -/
structure Catalog where
  name : String
  version : Option String := none
  operations : List Operation := []

namespace CatalogDocument

/-- The first fault with the identifiers and names of operations, given those seen before. -/
def firstRepetition? (ids names : List String) (operations : List OperationSpec) : Option Fault :=
  match operations with
  | [] => none
  | o :: rest =>
    if ids.contains o.id then some (.repeatedIdentifier o.id)
    else if names.contains o.effectiveName then some (.repeatedName o.effectiveName)
    else firstRepetition? (o.id :: ids) (o.effectiveName :: names) rest

/-- The document, if no two of its operations share an identifier or a name. -/
def checked (d : CatalogDocument) : Except Fault CatalogDocument :=
  match firstRepetition? [] [] d.operations with
  | some f => .error f
  | none => .ok d

end CatalogDocument

namespace Catalog

/-- The catalog that a document describes. -/
def ofDocument (d : CatalogDocument) : Catalog :=
  { name := d.name, version := d.version
    operations := d.operations.map
      (Operation.ofSpec d.extensionPrefix (d.baseUrl.getD "") d.configs) }

/-- The operation with an identifier. -/
def byId? (c : Catalog) (id : String) : Option Operation :=
  c.operations.find? fun op => op.id == id

/-- The operation with a name, or else the one with an identifier. -/
def operation? (c : Catalog) (name : String) : Option Operation :=
  (c.operations.find? fun op => op.name == name).or (c.byId? name)

/-- The first operation with a path and a method. -/
def byPath? (c : Catalog) (path method : String) : Option Operation :=
  c.operations.find? fun op => op.path == path && Text.sameAscii op.method method

/-- The pointer in a reference: what follows the first `#`, or all of it. -/
def fragment (reference : String) : String :=
  match Text.cutText '#' reference with
  | some (_, fragment) => fragment
  | none => reference

/-- The operation that a reference points to. -/
def byReference? (c : Catalog) (reference : String) : Option Operation :=
  match Pointer.parse? (fragment reference) with
  | some ["operations", id] => c.byId? id
  | some ["paths", path, method] => c.byPath? path method
  | _ => none

/-- The names of all operations. -/
def names (c : Catalog) : List String := c.operations.map Operation.name

/-- The operation with a name or identifier. -/
def operation (c : Catalog) (name : String) : Except Fault Operation :=
  match c.operation? name with
  | some op => .ok op
  | none => .error (.unknownOperation name c.names)

end Catalog

end ApiCommand
