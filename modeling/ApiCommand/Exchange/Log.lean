import ApiCommand.Exchange.Basic
import ApiCommand.Host.Basic
import ApiCommand.Json.Printer
import ApiCommand.Text.Numeral
import ApiCommand.Unicode.CaseMap
import ApiCommand.Unicode.FinalSigma

/-!
# The log of an exchange

The first line of a request or response is logged at level info, its headers at level debug and its
body at level trace. The values of headers that hold secrets are not shown, and bodies are cut at a
number of characters.
-/

namespace ApiCommand

/-- How much of an event is of interest. -/
inductive LogLevel where
  | info | debug | trace

/-- The name of a level. -/
def LogLevel.name (l : LogLevel) : String :=
  match l with
  | info => "INFO"
  | debug => "DEBUG"
  | trace => "TRACE"

/-- A line of the log. -/
structure LogEvent where
  level : LogLevel
  message : String

namespace Log

/-- Headers whose values are secret. -/
def secretHeaders : List String :=
  ["authorization", "cookie", "set-cookie", "x-api-key", "x-access-token", "x-auth-token",
    "api-key", "api_key", "token", "secret", "password"]

/-- The header holds a secret. -/
def isSecret (header : String) : Bool := secretHeaders.contains (Unicode.lowerText header)

/-- What is shown of the value of a header. -/
def shownValue (header value : String) : String :=
  if isSecret header && !value.isEmpty then "[REDACTED]" else value

/-- The lines for headers. -/
def headerEvents (subject : String) (headers : Dict String) : List LogEvent :=
  if headers.isEmpty then []
  else
    ⟨.debug, subject ++ " headers:"⟩ ::
      headers.map fun (name, value) => ⟨.debug, "  " ++ name ++ ": " ++ shownValue name value⟩

/-- The line for a body. -/
def bodyEvents (subject : String) (body : Option Json) (limit : Nat) : List LogEvent :=
  match body with
  | none => []
  | some v =>
    let text := v.text
    let shown :=
      if limit < text.length then
        String.ofList (text.toList.take limit) ++ " (truncated at " ++ toString limit ++ " chars)"
      else text
    [⟨.trace, subject ++ " body: " ++ shown⟩]

/-- The log of a request. -/
def requestEvents (r : Request) (limit : Nat) : List LogEvent :=
  ⟨.info, "→ " ++ Unicode.upperText r.method ++ " " ++ r.url⟩ ::
    (headerEvents "Request" r.headers ++ bodyEvents "Request" r.body limit)

/-- The log of a response. -/
def responseEvents (r : Response) (limit : Nat) : List LogEvent :=
  ⟨.info, "← " ++ toString r.status⟩ ::
    (headerEvents "Response" r.headers ++ bodyEvents "Response" r.body limit)

/-- Bodies are cut at this length unless the environment says otherwise. -/
def defaultBodyLimit : Nat := 1000

/-- The length at which bodies are cut. -/
def bodyLimit (host : Host) : Nat :=
  ((host.getVariable? "RELAY_LOG_MAX_BODY").bind fun s => Text.word64? s.toList).getD
    defaultBodyLimit

end Log

end ApiCommand
