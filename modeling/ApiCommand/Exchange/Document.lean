import ApiCommand.Exchange.Basic
import ApiCommand.Json.Decode
import ApiCommand.Text.Utf8

/-!
# Exchanges as JSON

Readers and writers for results and their parts. Everything that is written can be read back; in
particular absent bodies are told apart from all bodies but null, which means the same.
-/

namespace ApiCommand

/-- Reads a location. -/
def Location.ofJson? (v : Json) : Option Location :=
  match v with
  | .string name => Location.ofName? name
  | .object [(name, .null)] => Location.ofName? name
  | _ => none

namespace Binding

/-- Writes a binding. -/
def toJson (b : Binding) : Json :=
  .ofMembers [("external_name", .string b.externalName), ("wire_name", .string b.wireName),
    ("location", .string b.location.name)]

/-- Reads a binding. -/
def ofJson? (v : Json) : Option Binding := do
  let record ← v.recordOf? ["external_name", "wire_name", "location"]
  let externalName ← Json.required Json.asString? record "external_name"
  let wireName ← Json.required Json.asString? record "wire_name"
  let location ← Json.required Location.ofJson? record "location"
  some { externalName, wireName, location }

end Binding

namespace Source

/-- Writes a source. -/
def toJson (s : Source) : Json :=
  .ofMembers [("operation", .string s.operation), ("parameters", .object s.inputs.parameters),
    ("configs", .object s.inputs.configs), ("bindings", .array (s.bindings.map Binding.toJson))]

/-- Reads a source. -/
def ofJson? (v : Json) : Option Source := do
  let record ← v.recordOf? ["operation", "parameters", "configs", "bindings"]
  let operation ← Json.required Json.asString? record "operation"
  let parameters ← Json.required Json.asObject? record "parameters"
  let configs ← Json.required Json.asObject? record "configs"
  let bindings ← Json.defaulted (Json.listOf? Binding.ofJson?) [] record "bindings"
  some { operation, inputs := { parameters, configs }, bindings }

end Source

/-- Writes headers. -/
def headersJson (headers : Dict String) : Json := .object (Dict.mapValues Json.string headers)

/-- Reads any value as itself. -/
def Json.asValue? (v : Json) : Option Json := some v

namespace Request

/-- Writes a request. -/
def toJson (r : Request) : Json :=
  .ofMembers [("method", .string r.method), ("url", .string r.url),
    ("headers", headersJson r.headers), ("body", r.body.getD .null)]

/-- Reads a request. -/
def ofJson? (v : Json) : Option Request := do
  let record ← v.recordOf? ["method", "url", "headers", "body"]
  let method ← Json.required Json.asString? record "method"
  let url ← Json.required Json.asString? record "url"
  let headers ← Json.defaulted Json.textDict? [] record "headers"
  let body ← Json.optional Json.asValue? record "body"
  some { method, url, headers, body }

end Request

namespace Response

/-- Statuses are below this bound. -/
def statusBound : Nat := 65536

/-- Writes a response. -/
def toJson (r : Response) : Json :=
  .ofMembers [("status", .nat r.status), ("headers", headersJson r.headers),
    ("body", r.body.getD .null)]

/-- Reads a response. -/
def ofJson? (v : Json) : Option Response := do
  let record ← v.recordOf? ["status", "headers", "body"]
  let status ← Json.required (Json.asNatBelow? statusBound) record "status"
  let headers ← Json.defaulted Json.textDict? [] record "headers"
  let body ← Json.optional Json.asValue? record "body"
  some { status, headers, body }

end Response

/-- Writes bytes as an array of numbers. -/
def bytesJson (bytes : List UInt8) : Json := .array (bytes.map fun b => .nat b.toNat)

/-- Reads bytes from an array of numbers. -/
def bytesOf? (v : Json) : Option (List UInt8) :=
  Json.listOf? (fun item => (item.asNatBelow? 256).map UInt8.ofNat) v

namespace Part

/-- Writes a part. -/
def toJson (p : Part) : Json :=
  .ofMembers [("name", .string p.name), ("content_type", .optionalString p.contentType),
    ("data", bytesJson p.bytes)]

/-- Reads a part. -/
def ofJson? (v : Json) : Option Part := do
  let record ← v.recordOf? ["name", "content_type", "data"]
  let name ← Json.required Json.asString? record "name"
  let contentType ← Json.optional Json.asString? record "content_type"
  let bytes ← Json.required bytesOf? record "data"
  some { name, contentType, bytes }

end Part

namespace Payload

/-- Writes a payload. -/
def toJson (p : Payload) : Json :=
  match p with
  | value v => .ofMembers [("kind", .string "value"), ("data", v)]
  | stream bytes => .ofMembers [("kind", .string "reader"), ("data", bytesJson bytes)]
  | parts ps => .ofMembers [("kind", .string "multipart"), ("data", .array (ps.map Part.toJson))]

/-- Reads a payload. -/
def ofJson? (v : Json) : Option Payload := do
  let record ← v.recordOf? ["kind", "data"]
  let kind ← Json.required Json.asString? record "kind"
  let data ← Dict.get? record "data"
  if kind = "value" then some (value data)
  else if kind = "reader" then (bytesOf? data).map stream
  else if kind = "multipart" then (Json.listOf? Part.ofJson? data).map parts
  else none

/-- What is printed of a part: its size instead of its bytes. -/
def partOutput (p : Part) : Json :=
  .ofMembers [("name", .string p.name), ("contentType", .optionalString p.contentType),
    ("size", .nat p.bytes.length)]

/-- What is printed of a payload. -/
def output (p : Payload) : Json :=
  match p with
  | value v => v
  | stream bytes => .string (Text.Utf8.decodeLossy bytes)
  | parts ps => .array (ps.map partOutput)

end Payload

namespace Result

/-- Writes a result. -/
def toJson (r : Result) : Json :=
  .ofMembers [("source", r.source.toJson), ("request", r.request.toJson),
    ("response", r.response.toJson), ("payload", r.payload.toJson)]

/-- Reads a result. -/
def ofJson? (v : Json) : Option Result := do
  let record ← v.recordOf? ["source", "request", "response", "payload"]
  let source ← Json.required Source.ofJson? record "source"
  let request ← Json.required Request.ofJson? record "request"
  let response ← Json.required Response.ofJson? record "response"
  let payload ← Json.required Payload.ofJson? record "payload"
  some { source, request, response, payload }

end Result

end ApiCommand
