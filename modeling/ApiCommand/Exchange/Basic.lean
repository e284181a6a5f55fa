import ApiCommand.Json.Basic
import ApiCommand.Text.Split

/-!
# Exchanges

A request and the response to it, the inputs that led to the request, and the payload that the
caller gets. A binding ties an input to the place where it travels: its external name is what users
know it by, its wire name what the service does.
-/

namespace ApiCommand

/-- Where an input travels. -/
inductive Location where
  | path | query | header | cookie
  deriving DecidableEq

namespace Location

/-- The name of a location. -/
def name (l : Location) : String :=
  match l with
  | path => "path"
  | query => "query"
  | header => "header"
  | cookie => "cookie"

/-- The location of a name. -/
def ofName? (s : String) : Option Location :=
  [path, query, header, cookie].find? fun l => l.name == s

/-- Headers and cookies are settings of the surroundings; paths and queries belong to one call. -/
def isConfig (l : Location) : Bool :=
  match l with
  | header | cookie => true
  | path | query => false

end Location

/-- The place of an input. -/
structure Binding where
  /-- The name among the values given by the caller. -/
  externalName : String
  /-- The name in the request. -/
  wireName : String
  /-- The part of the request. -/
  location : Location
  deriving DecidableEq

/-- The key names the input, by its wire name or by its location, a dot and its wire name. -/
def Binding.isNamedBy (b : Binding) (key : String) : Bool :=
  key == b.wireName ||
    match Text.cutText '.' key with
    | none => false
    | some (location, name) => location == b.location.name && name == b.wireName

/-- The values that an operation is called with. -/
structure Inputs where
  /-- Values that belong to one call, by external name. -/
  parameters : Dict Json := []
  /-- Settings of the surroundings, by external name. -/
  configs : Dict Json := []

/-- The values of the kind that belongs to a location. -/
def Inputs.at (inputs : Inputs) (l : Location) : Dict Json :=
  if l.isConfig then inputs.configs else inputs.parameters

/-- What a result comes from. -/
structure Source where
  /-- The identifier of the operation. -/
  operation : String
  /-- The values it was called with. -/
  inputs : Inputs
  /-- The places of the values. -/
  bindings : List Binding

/-- The value of the input that has a wire name and a location. -/
def Source.valueAt (s : Source) (l : Location) (wireName : String) : Option Json :=
  (s.bindings.find? fun b => b.location == l && b.wireName == wireName).bind fun b =>
    Dict.get? (s.inputs.at l) b.externalName

/-- What is sent. -/
structure Request where
  method : String
  url : String
  headers : Dict String := []
  /-- The structured body, if there is one. -/
  body : Option Json := none

/-- What is received. -/
structure Response where
  status : Nat
  headers : Dict String := []
  /-- The structured body, if there is one. -/
  body : Option Json := none

/-- A part of a payload. -/
structure Part where
  name : String
  contentType : Option String
  bytes : List UInt8

/-- What a caller gets. -/
inductive Payload where
  /-- A structured value. -/
  | value (v : Json)
  /-- A stream of bytes. -/
  | stream (bytes : List UInt8)
  /-- Named parts. -/
  | parts (parts : List Part)

/-- The outcome of a call. -/
structure Result where
  source : Source
  request : Request
  response : Response
  payload : Payload

/-- The result whose payload is the body of the response, or null if there is none. -/
def Result.ofResponse (source : Source) (request : Request) (response : Response) : Result :=
  ⟨source, request, response, .value (response.body.getD .null)⟩

end ApiCommand
