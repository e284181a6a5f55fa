import ApiCommand.Host.Basic
import ApiCommand.Unicode.FinalSigma

/-!
# Settings of the log

What is logged and where to. How often the user asks for more on the command line counts before the
environment. A format that is not known is reported and text is used.
-/

namespace ApiCommand

/-- The format of the log. -/
inductive LogFormat where
  | text | json
  deriving DecidableEq

/-- The name of a format. -/
def LogFormat.name (f : LogFormat) : String :=
  match f with
  | text => "text"
  | json => "json"

/-- The settings of the log. -/
structure LogSettings where
  /-- Which events are logged. -/
  directive : String
  format : LogFormat
  /-- The file that events are appended to. -/
  file : Option String
  /-- What is to be reported once the log is set up. -/
  warnings : List String

namespace LogSettings

/-- Which events are logged, given how often the user asks for more. -/
def directiveFor (host : Host) (verbosity : Nat) : String :=
  match verbosity with
  | 0 => (host.getVariable? "RELAY_LOG").getD "error"
  | 1 => "relay_cli=debug,relay=debug"
  | _ => "trace"

/-- The format of a name, or text and a warning. -/
def formatNamed (name : String) : LogFormat × List String :=
  if name = LogFormat.text.name then (.text, [])
  else if name = LogFormat.json.name then (.json, [])
  else (.text, ["unrecognized RELAY_LOG_FORMAT '" ++ name ++ "', using 'text'"])

/-- The settings, given how often the user asks for more. -/
def ofHost (host : Host) (verbosity : Nat) : LogSettings :=
  let (format, warnings) :=
    ((host.getVariable? "RELAY_LOG_FORMAT").map fun name =>
      formatNamed (Unicode.lowerText name)).getD (.text, [])
  { directive := directiveFor host verbosity
    format
    file := host.nonemptyVariable? "RELAY_LOG_FILE"
    warnings }

end LogSettings

end ApiCommand
