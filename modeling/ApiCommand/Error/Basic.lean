import ApiCommand.Error.Fault

/-!
# Errors

An error is a fault, a list of issues with the way a command is used, a request for help, or trouble
with a file. `Error.display` is its text, `Error.summary` its structured form and `Error.report`
what a user is shown.
-/

namespace ApiCommand

/-- One thing that is wrong with the arguments of a command. -/
inductive Issue where
  /-- Required flags have no value. -/
  | missing (flags : List String)
  /-- The value of a flag cannot be read or does not conform to its schema. -/
  | invalid (flag reason : String)
  /-- The positional arguments do not fit. -/
  | positional (message : String)
  /-- The arguments do not have the form of a command line. -/
  | unrecognized (message : String)
  deriving DecidableEq

namespace Issue

/-- The wording of an issue. -/
def message (i : Issue) : String :=
  match i with
  | missing flags =>
    "missing required flags: " ++ String.intercalate ", " (flags.map fun name => "--" ++ name)
  | invalid flag reason => "invalid value for --" ++ flag ++ ": " ++ reason
  | positional message | unrecognized message => message

/-- The flags that an issue names. -/
def flags (i : Issue) : List String :=
  match i with
  | missing flags => flags
  | invalid flag _ => [flag]
  | positional _ | unrecognized _ => []

/-- The issue is about the form of the command line. -/
def isUnrecognized (i : Issue) : Bool :=
  match i with
  | unrecognized _ => true
  | _ => false

end Issue

/-- A kind of trouble with a file that there is advice on. -/
inductive FileTrouble where
  | notFound | forbidden | other
  deriving DecidableEq

namespace FileTrouble

/-- The kind of trouble that a fault is. -/
def ofFault (f : FileFault) : FileTrouble :=
  match f with
  | .missing => notFound
  | .permissionDenied => forbidden
  | _ => other

/-- The advice on a kind of trouble. -/
def advice? (t : FileTrouble) : Option String :=
  match t with
  | notFound => some "Check that the file path is correct and the file exists."
  | forbidden => some "Check file permissions or run with appropriate privileges."
  | other => none

end FileTrouble

/-- A format that texts are written in. -/
inductive TextFormat where
  | json | yaml | toml
  deriving DecidableEq

namespace TextFormat

/-- The name of a format. -/
def name (f : TextFormat) : String :=
  match f with
  | json => "JSON"
  | yaml => "YAML"
  | toml => "TOML"

/-- What texts in a format are for. -/
def subject (f : TextFormat) : String :=
  match f with
  | json => "JSON"
  | yaml => "Catalog"
  | toml => "Config"

/-- The advice on a text that is not written in the format. -/
def advice (f : TextFormat) : String :=
  match f with
  | json => "Check that the value or file contains valid JSON."
  | yaml => "Check that your operation catalog is valid YAML syntax."
  | toml => "Check that your configuration file is valid TOML syntax."

end TextFormat

/-- Why a command does not do what it was called for. -/
inductive Error where
  /-- Something is at fault apart from the use of the command. -/
  | fault (f : Fault)
  /-- The command was used in a wrong way. -/
  | usage (issues : List Issue)
  /-- Help on a flag was asked for. -/
  | flagHelp (flag text : String)
  /-- Help on the whole command was asked for. -/
  | commandHelp
  /-- A file could not be read. -/
  | file (trouble : FileTrouble) (message : String)
  /-- A text is not written in its format. -/
  | malformed (format : TextFormat) (message : String)
  /-- Anything else: its cause, and the circumstances from the innermost to the outermost. -/
  | unexpected (cause : String) (circumstances : List String)

namespace Error

/-- The text of an error of the last kind: the outermost circumstance, or the cause. -/
def outermost (cause : String) (circumstances : List String) : String :=
  circumstances.getLast?.getD cause

/-- The wordings of all issues, one on a line. -/
def issuesText (issues : List Issue) : String :=
  String.intercalate "\n" (issues.map Issue.message)

/-- The wording of a request for help. -/
def helpText (flag : String) : String := "help requested for --" ++ flag

/-- The text of an error. -/
def display (e : Error) : String :=
  match e with
  | fault f => f.area.label ++ ": " ++ f.message
  | usage issues => issuesText issues
  | flagHelp flag _ => helpText flag
  | commandHelp => helpText "help"
  | file _ message => "I/O error: " ++ message
  | malformed n message => n.name ++ " parsing error: " ++ message
  | unexpected cause circumstances => outermost cause circumstances

/-- The structured form of an error. -/
structure Summary where
  /-- The kind of error. -/
  type : String
  /-- The wording. -/
  message : String
  /-- Details and advice. -/
  context : Option String

/-- Details and advice of a fault in one text. -/
def faultContext (f : Fault) : Option String :=
  match f.details?, f.suggestion? with
  | some details, some suggestion => some (details ++ ". " ++ suggestion)
  | some details, none => some details
  | none, suggestion => suggestion

/-- The structured form of an error. -/
def summary (e : Error) : Summary :=
  match e with
  | fault f => ⟨f.area.name, f.message, faultContext f⟩
  | usage issues => ⟨"Usage", issuesText issues, none⟩
  | flagHelp flag _ => ⟨"HelpRequested", helpText flag, none⟩
  | commandHelp => ⟨"HelpRequested", helpText "help", none⟩
  | file trouble message => ⟨"FileSystem", message, trouble.advice?⟩
  | malformed n message => ⟨n.name ++ "Parsing", message, some n.advice⟩
  | unexpected cause circumstances => ⟨"Unexpected", outermost cause circumstances, none⟩

/-- A text and the advice that goes with it. -/
def withHint (text : String) (hint : Option String) : String :=
  match hint with
  | none => text
  | some hint => text ++ "\n\nHint: " ++ hint

/-- The first flag whose value is at issue. -/
def firstInvalid? (issues : List Issue) : Option String :=
  issues.findSome? fun i =>
    match i with
    | .invalid flag _ => some flag
    | _ => none

/-- The advice on issues: help on the first flag whose value is at issue, or on the command. -/
def usageHint (issues : List Issue) : String :=
  match firstInvalid? issues with
  | some flag => "Pass --" ++ flag ++ "=help to see what --" ++ flag ++ " accepts."
  | none => "Use --help to see the accepted flags."

/-- What a user is shown. -/
def report (e : Error) : String :=
  match e with
  | fault f =>
    let heading := f.area.label ++ ": " ++ f.message
    withHint
      (match f.details? with
        | none => heading
        | some details => heading ++ "\n" ++ details)
      f.suggestion?
  | usage issues =>
    withHint
      ("Usage Error" ++ String.join (issues.map fun i => "\n  - " ++ i.message))
      (some (usageHint issues))
  | flagHelp _ text => text
  | commandHelp => helpText "help"
  | file trouble message => withHint ("File Error\n" ++ message) trouble.advice?
  | malformed n message =>
    withHint (n.subject ++ " Parsing Error\n" ++ message) (some n.advice)
  | unexpected cause circumstances =>
    "Error\n" ++ String.intercalate ": " (circumstances.reverse ++ [cause])

/-- Trouble with a file. -/
def ofFileFault (f : FileFault) : Error := file (.ofFault f) f.message

end Error

end ApiCommand
