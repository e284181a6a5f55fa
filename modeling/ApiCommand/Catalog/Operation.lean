import ApiCommand.Catalog.Document
import ApiCommand.Flag.Synthesis
import ApiCommand.Text.FlagName
import ApiCommand.Unicode.CaseMap

/-!
# Operations

An operation of a catalog, with the schemas of its inputs. Path and query parameters and the
properties of the body are parameters; headers, cookies and settings are configs. An input is known
by its external name, which the schema may set. A property of the body whose external name is taken
gets a mark in front as often as it takes to be free.
-/

namespace ApiCommand

/-- An operation. -/
structure Operation where
  id : String
  name : String
  description : String
  method : String
  /-- The path below the base address, with placeholders in braces. -/
  path : String
  baseUrl : String
  /-- The mark at the start of the names of extensions that have a meaning here. -/
  extensionMark : String
  /-- The schema of the parameters. -/
  parameters : Schema
  /-- The schema of the configs. -/
  configs : Schema
  /-- The places of the path, query, header and cookie parameters. -/
  bindings : List Binding
  /-- The external names of the properties of the body, and what they are called there. -/
  bodyProperties : Dict String
  positionals : List String
  hidden : List String
  links : List Link

/-- The external name of an input: the one that an extension of its schema sets, or its own. -/
def externalName (mark wireName : String) (schema : Schema) : String :=
  match Dict.get? schema.extensions (mark ++ "-name") with
  | some (.string name) => if name.isEmpty then wireName else name
  | _ => wireName

namespace ParameterSpec

/-- The schema of a parameter. A description beside the schema counts if the schema has none. -/
def describedSchema (p : ParameterSpec) : Schema :=
  { p.schema with description := p.schema.description.or p.description }

/-- The place of a parameter. -/
def binding (mark : String) (p : ParameterSpec) : Binding :=
  ⟨externalName mark p.name p.schema, p.name, p.location⟩

/-- A call needs a value for the parameter. -/
def isRequired (p : ParameterSpec) : Bool := p.required || p.location == .path

end ParameterSpec

/-- Properties of an object and the names of those that are required. -/
structure Properties where
  schemas : Dict Schema := []
  required : List String := []

namespace Properties

/-- Adds a property, in place of another one of its name. -/
def add (p : Properties) (name : String) (schema : Schema) (required : Bool) : Properties :=
  { schemas := Dict.insert p.schemas name schema
    required := if required then p.required ++ [name] else p.required }

/-- Adds the properties of a schema. -/
def addAll (p : Properties) (schema : Schema) : Properties :=
  schema.properties.foldl (fun p e => p.add e.1 e.2 (schema.requires e.1)) p

/-- Adds a parameter. -/
def addParameter (mark : String) (p : Properties) (spec : ParameterSpec) : Properties :=
  p.add (spec.binding mark).externalName spec.describedSchema spec.isRequired

/-- The schema of objects with these properties and no others. -/
def schema (p : Properties) : Schema := .object p.schemas p.required

end Properties

/-- The parameters of an operation and what the properties of the body among them are called in the
body. -/
structure BodyNames where
  properties : Properties
  wireNames : Dict String := []

namespace BodyNames

/-- The mark for external names that are taken. -/
def conflictMark : String := "req-"

/-- Adds a property of the body. -/
def add (mark : String) (b : BodyNames) (wireName : String) (schema : Schema) (required : Bool) :
    BodyNames :=
  let name := freshName b.properties.schemas conflictMark b.properties.schemas.length
    (externalName mark wireName schema)
  { properties := b.properties.add name schema required
    wireNames := Dict.insert b.wireNames name wireName }

/-- Adds the properties of a body. -/
def addAll (mark : String) (b : BodyNames) (body : Schema) : BodyNames :=
  body.properties.foldl (fun b e => b.add mark e.1 e.2 (body.requires e.1)) b

end BodyNames

/-- The name of the command for an operation. -/
def OperationSpec.effectiveName (spec : OperationSpec) : String :=
  spec.name.getD (Text.kebab spec.id)

namespace Operation

/-- A text without slashes at its end. -/
def dropSlashes (s : String) : String :=
  String.ofList ((s.toList.reverse.dropWhile (· == '/')).reverse)

/-- The parameters of an operation and the names of its body's properties. -/
def parametersOf (mark : String) (spec : OperationSpec) : BodyNames :=
  let own := spec.parameters.filter fun p => !p.location.isConfig
  let start : BodyNames := { properties := own.foldl (Properties.addParameter mark) {} }
  match spec.requestBody with
  | none => start
  | some body => start.addAll mark body

/-- The configs of an operation: those of the catalog, its own ones, and its header and cookie
parameters. -/
def configsOf (mark : String) (shared : Option Schema) (spec : OperationSpec) : Properties :=
  let settings := (shared.toList ++ spec.configs.toList).foldl Properties.addAll {}
  (spec.parameters.filter fun p => p.location.isConfig).foldl
    (Properties.addParameter mark) settings

/-- The operation of a specification. -/
def ofSpec (mark baseUrl : String) (shared : Option Schema) (spec : OperationSpec) : Operation :=
  let parameters := parametersOf mark spec
  { id := spec.id
    name := spec.effectiveName
    description := spec.description.getD ""
    method := Unicode.upperText spec.method
    path := spec.path
    baseUrl := dropSlashes baseUrl
    extensionMark := mark
    parameters := parameters.properties.schema
    configs := (configsOf mark shared spec).schema
    bindings := spec.parameters.map (ParameterSpec.binding mark)
    bodyProperties := parameters.wireNames
    positionals := spec.positionalArgs
    hidden := spec.hiddenFlags
    links := spec.links.map fun e => { e.2 with name := e.1 } }

/-- What a command needs to know of an operation. -/
def descriptor (op : Operation) : Descriptor :=
  { name := op.name, description := op.description, parameters := op.parameters
    configs := op.configs, positionals := op.positionals, hidden := op.hidden }

end Operation

end ApiCommand
