import ApiCommand.Catalog.Basic
import ApiCommand.Catalog.Request
import ApiCommand.Link.Expression
import ApiCommand.Schema.Validation

/-!
# Following links

`Link.inputs` derives the inputs of the operation that a link leads to. The link's parameters go to
the inputs they name, values at pointers are written next, values that the caller adds fill what is
still open, and configs that are left are taken over from the call that the link starts from.
-/

namespace ApiCommand

/-- A parameter or a config. -/
inductive Slot where
  | parameter (name : String)
  | config (name : String)
  deriving DecidableEq

/-- The inputs with a value in a slot. -/
def Inputs.put (inputs : Inputs) (slot : Slot) (v : Json) : Inputs :=
  match slot with
  | .parameter name => { inputs with parameters := Dict.insert inputs.parameters name v }
  | .config name => { inputs with configs := Dict.insert inputs.configs name v }

namespace Operation

/-- The first binding named by a key, among those that are configs or among those that are not. -/
def namedBinding? (op : Operation) (isConfig : Bool) (key : String) : Option Binding :=
  op.bindings.find? fun b => b.location.isConfig == isConfig && b.isNamedBy key

/-- The input that a key names: a path or query parameter, a header or cookie, or else a property of
the parameters or of the configs. -/
def slot? (op : Operation) (key : String) : Option Slot :=
  match op.namedBinding? false key, op.namedBinding? true key with
  | some b, _ => some (.parameter b.externalName)
  | none, some b => some (.config b.externalName)
  | none, none =>
    if Dict.contains op.parameters.properties key then some (.parameter key)
    else if Dict.contains op.configs.properties key then some (.config key)
    else none

end Operation

namespace Link

/-- The operation that the link leads to: the one with its identifier, or else the one that its
reference points to. -/
def target? (l : Link) (c : Catalog) : Option Operation :=
  (l.operationId.bind c.byId?).or (l.operationRef.bind c.byReference?)

/-- The link provides a property of the target's parameters. -/
def provides (l : Link) (target : Operation) (property : String) : Bool :=
  l.parameters.any fun e =>
    e.1 == property ||
      target.bindings.any fun b => b.externalName == property && b.isNamedBy e.1

/-- The parameters of the target that the link does not provide. -/
def additionalSchema (l : Link) (target : Operation) : Schema :=
  let properties := target.parameters.properties.filter fun e => !l.provides target e.1
  .object properties (target.parameters.required.filter fun name => Dict.contains properties name)

/-- The inputs with the value of a link parameter, if it has one and names an input. -/
def putParameter (target : Operation) (r : Result) (inputs : Inputs) (entry : String × Json) :
    Inputs :=
  match Formula.resolve entry.2 r, target.slot? entry.1 with
  | some v, some slot => inputs.put slot v
  | _, _ => inputs

/-- The inputs that the parameters of the link give. -/
def parameterInputs (l : Link) (target : Operation) (r : Result) : Inputs :=
  l.parameters.foldl (putParameter target r) {}

/-- Writes the values of expressions at pointers, in order. Expressions without a value are
skipped. -/
def writeBody (r : Result) (entries : List (String × String)) (v : Json) : Except Fault Json :=
  match entries with
  | [] => .ok v
  | (pointer, expression) :: rest =>
    match Formula.resolve (.string expression) r with
    | none => writeBody r rest v
    | some item =>
      match Pointer.parse? pointer with
      | none => .error (.malformedPointer pointer)
      | some tokens =>
        match v.write tokens item with
        | .error o => .error (.unwritable pointer o)
        | .ok v => writeBody r rest v

/-- Adds entries for keys that are not taken. -/
def fill (d additional : Dict Json) : Dict Json :=
  additional.foldl (fun d e => Dict.insertNew d e.1 e.2) d

/-- Takes over configs that the target has. -/
def carryOver (target : Operation) (r : Result) (configs : Dict Json) : Dict Json :=
  (Dict.keys target.configs.properties).foldl
    (fun d name =>
      match Dict.get? r.source.inputs.configs name with
      | some v => Dict.insertNew d name v
      | none => d)
    configs

/-- The inputs of the target, given the schema of the values that the caller adds. -/
def inputs (l : Link) (target : Operation) (additionalSchema : Schema) (r : Result)
    (additional : Dict Json) : Except Fault Inputs := do
  let complaints := additionalSchema.complaints (.object additional)
  if complaints.isEmpty then
    let start := l.parameterInputs target r
    let body ← writeBody r (l.bodyParameters target.extensionMark) (.object start.parameters)
    .ok
      { parameters := fill body.membersD additional
        configs := carryOver target r start.configs }
  else .error (.additionalParameters l.name complaints)

/-- The operation that the link leads to. -/
def target (l : Link) (c : Catalog) : Except Fault Operation :=
  match l.target? c with
  | some op => .ok op
  | none => .error (.unreachableTarget l.name)

/-- The inputs of the operation that the link leads to. -/
def prepare (l : Link) (c : Catalog) (r : Result) (additional : Dict Json) :
    Except Fault Inputs := do
  let target ← l.target c
  l.inputs target (l.additionalSchema target) r additional

end Link

/-- A summary of a link. -/
structure LinkSummary where
  name : String
  target : Option String
  description : String
  parameters : Dict Json
  /-- What a caller may add. -/
  additional : Schema

namespace LinkSummary

/-- The name of links that lead nowhere. -/
def missingName : String := "missing"

/-- The summary of a link, given the operation that it leads to and the schema of what a caller may
add. -/
def ofLink (l : Link) (target : Option Operation) (additional : Option Schema) : LinkSummary :=
  { name := if target.isSome then l.name else missingName
    target := target.map Operation.name
    description := l.description.getD ""
    parameters := l.parameters
    additional := additional.getD .emptyObject }

/-- Writes a summary. -/
def toJson (s : LinkSummary) : Json :=
  .ofMembers
    [("name", .string s.name), ("target", .optionalString s.target),
      ("description", .string s.description), ("parameters", .object s.parameters),
      ("additional_parameters", s.additional.toJson)]

end LinkSummary

/-- Follows a link of an operation: calls the operation that it leads to. -/
def Operation.follow (op : Operation) (c : Catalog) (cancelled : Bool) (r : Result)
    (linkName : String) (additional : Dict Json) : Except Fault Result :=
  match op.links.find? fun l => l.name == linkName with
  | none => .error (.unknownLink op.name linkName)
  | some l => do
    let target ← l.target c
    let inputs ← l.inputs target (l.additionalSchema target) r additional
    target.execute cancelled inputs

end ApiCommand
