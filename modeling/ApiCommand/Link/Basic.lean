import ApiCommand.Json.Decode

/-!
# Links

A link says how the inputs of one operation follow from the result of another one. Its parameters
map names to expressions or fixed values. An extension, whose name starts with the mark of the
catalog, maps pointers into the inputs to expressions.
-/

namespace ApiCommand

/-- A link. -/
structure Link where
  name : String := ""
  description : Option String := none
  /-- The identifier of the operation that the link leads to. -/
  operationId : Option String := none
  /-- A reference to the operation that the link leads to. -/
  operationRef : Option String := none
  /-- Names of inputs and what to pass for them. -/
  parameters : Dict Json := []
  /-- Members of the link's document that have no meaning here. -/
  extensions : Dict Json := []

namespace Link

/-- The members of a link's document that have a meaning. -/
def memberNames : List String :=
  ["name", "description", "operationId", "operationRef", "parameters"]

/-- Reads a link. -/
def ofJson? (v : Json) : Option Link := do
  let record ← v.asObject?
  let name ← Json.defaulted Json.asString? "" record "name"
  let description ← Json.optional Json.asString? record "description"
  let operationId ← Json.optional Json.asString? record "operationId"
  let operationRef ← Json.optional Json.asString? record "operationRef"
  let parameters ← Json.defaulted Json.asObject? [] record "parameters"
  let extensions := record.filter fun e => !memberNames.contains e.1
  some { name, description, operationId, operationRef, parameters, extensions }

/-- Writes a link. -/
def toJson (l : Link) : Json :=
  .ofMembers
    ([("name", .string l.name)] ++ Json.textMember "description" l.description ++
      Json.textMember "operationId" l.operationId ++
      Json.textMember "operationRef" l.operationRef ++
      (if l.parameters.isEmpty then [] else [("parameters", .object l.parameters)]) ++
      l.extensions)

/-- The name of the extension for pointers into the inputs. -/
def bodyKey (mark : String) : String := mark ++ "-requestBodyParameters"

/-- The pointers into the inputs and their expressions. Expressions have to be texts. -/
def bodyParameters (l : Link) (mark : String) : Dict String :=
  (((Dict.get? l.extensions (bodyKey mark)).map Json.membersD).getD []).filterMap fun e =>
    e.2.asString?.map fun s => (e.1, s)

/-- Adds a pointer and its expression, unless the extension is no mapping. -/
def withBodyParameter (l : Link) (mark pointer expression : String) : Link :=
  let key := bodyKey mark
  match (Dict.get? l.extensions key).getD .emptyObject with
  | .object entries =>
    let entries := Dict.insert entries pointer (.string expression)
    { l with extensions := Dict.insert l.extensions key (.object entries) }
  | _ => l

end Link

end ApiCommand
