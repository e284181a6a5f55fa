import ApiCommand.Catalog.Operation
import ApiCommand.Error.Fault
import ApiCommand.Json.Printer
import ApiCommand.Text.Percent

/-!
# Requests

`Operation.request` builds the request for inputs: path parameters replace their placeholders,
queries are appended to the address, one pair for each item of an array, headers and cookies become
headers, and the properties of the body make the body.
-/

namespace ApiCommand

namespace Operation

/-- The value given for a binding. -/
def valueOf (inputs : Inputs) (b : Binding) : Option Json :=
  Dict.get? (inputs.at b.location) b.externalName

/-- The bindings of one location that have a value, with their values. -/
def given (op : Operation) (inputs : Inputs) (l : Location) : List (String × Json) :=
  (op.bindings.filter fun b => b.location == l).filterMap fun b =>
    (valueOf inputs b).map fun v => (b.wireName, v)

/-- A path with a value in place of a placeholder. -/
def fillPlaceholder (path : List Char) (name : String) (v : Json) : List Char :=
  Text.replace ('{' :: (name.toList ++ ['}'])) (Text.Percent.encode v.plainText).toList path

/-- The path with values in place of placeholders. -/
def filledPath (op : Operation) (inputs : Inputs) : String :=
  String.ofList ((op.given inputs .path).foldl (fun path e => fillPlaceholder path e.1 e.2)
    op.path.toList)

/-- The names and texts of the pairs that a value contributes to the query. -/
def queryTexts (name : String) (v : Json) : List (String × String) :=
  match v with
  | .array items => items.map fun item => (name, item.plainText)
  | v => [(name, v.plainText)]

/-- The names and texts of the query. -/
def query (op : Operation) (inputs : Inputs) : List (String × String) :=
  (op.given inputs .query).flatMap fun e => queryTexts e.1 e.2

/-- A pair of the query. -/
def queryPair (pair : String × String) : String :=
  Text.Percent.encode pair.1 ++ "=" ++ Text.Percent.encode pair.2

/-- The address of the request. -/
def url (op : Operation) (inputs : Inputs) : String :=
  let pairs := op.query inputs
  op.baseUrl ++ op.filledPath inputs ++
    (if pairs.isEmpty then "" else "?" ++ String.intercalate "&" (pairs.map queryPair))

/-- The names and texts of the cookies. -/
def cookies (op : Operation) (inputs : Inputs) : List (String × String) :=
  (op.given inputs .cookie).map fun e => (e.1, e.2.plainText)

/-- The body, unless no property of it has a value. -/
def body (op : Operation) (inputs : Inputs) : Option Json :=
  let members := op.bodyProperties.filterMap fun (name, wireName) =>
    (Dict.get? inputs.parameters name).map fun v => (wireName, v)
  if members.isEmpty then none else some (.ofMembers members)

/-- The headers of the request. Cookies and the type of the body are written last. -/
def headers (op : Operation) (inputs : Inputs) : Dict String :=
  let own := Dict.ofList ((op.given inputs .header).map fun e => (e.1, e.2.plainText))
  let pairs := op.cookies inputs
  let withCookies :=
    if pairs.isEmpty then own
    else
      Dict.insert own "Cookie" (String.intercalate "; " (pairs.map fun e => e.1 ++ "=" ++ e.2))
  if (op.body inputs).isNone then withCookies
  else Dict.insert withCookies "Content-Type" "application/json"

/-- The first path parameter without a value. -/
def missingPath? (op : Operation) (inputs : Inputs) : Option Binding :=
  op.bindings.find? fun b => b.location == .path && (valueOf inputs b).isNone

/-- The request for inputs. All path parameters need a value. -/
def request (op : Operation) (inputs : Inputs) : Except Fault Request :=
  match op.missingPath? inputs with
  | some b => .error (.missingPathParameter b.wireName op.name)
  | none =>
    .ok
      { method := op.method, url := op.url inputs, headers := op.headers inputs
        body := op.body inputs }

end Operation

namespace Request

/-- What a request without a body is echoed as. -/
def line (r : Request) : Json :=
  .ofMembers
    ([("method", .string r.method), ("url", .string r.url)] ++
      (if r.headers.isEmpty then [] else [("headers", headersJson r.headers)]))

/-- The response to a request that is not really sent: it echoes the body, or else the request
itself. A call that is cancelled gets no response. -/
def echo (r : Request) (cancelled : Bool) : Except Fault Response :=
  if cancelled then .error (.cancelled r.method r.url)
  else
    .ok
      { status := 200, headers := [("Content-Type", "application/json")]
        body := some (r.body.getD r.line) }

end Request

namespace Operation

/-- Calls the operation. -/
def execute (op : Operation) (cancelled : Bool) (inputs : Inputs) : Except Fault Result := do
  let request ← op.request inputs
  let response ← request.echo cancelled
  .ok (.ofResponse { operation := op.id, inputs, bindings := op.bindings } request response)

end Operation

end ApiCommand
