import ApiCommand.Catalog.Text
import ApiCommand.Command.Call
import ApiCommand.Config.File
import ApiCommand.Flag.Completion
import ApiCommand.Link.Memo
import ApiCommand.Program.Arguments
import ApiCommand.Unicode.WhiteSpace
import ApiCommand.Yaml.Printer

/-!
# Sessions

A session has the configuration and the catalog that a command works with. Each command turns a
session into the text that it prints.
-/

namespace ApiCommand.Program

/-- What all commands work with. -/
structure Session where
  host : Host
  config : Config
  catalog : Catalog

/-- The name of the catalog's file: the one that the invocation gives or else the configuration. -/
def catalogPath? (i : Invocation) (c : Config) : Option String := i.catalog.or c.catalog

/-- Reads the catalog under a path. -/
def readCatalog (host : Host) (path : String) : Except Error CatalogDocument :=
  if host.hasFile path then
    match host.textOf path with
    | .ok text => CatalogDocument.parse text
    | .error f => .error (.unexpected f.message ["cannot read catalog '" ++ path ++ "'"])
  else .error (.fault (.catalogFileMissing path))

/-- Loads the configuration of an invocation. -/
def loadConfig (host : Host) (i : Invocation) : Except Error Config :=
  Config.load host (Config.directory? host) i.configFile

/-- The path of the catalog. -/
def locateCatalog (host : Host) (i : Invocation) (c : Config) : Except Error String :=
  match catalogPath? i c with
  | none => .error (.fault .catalogNotConfigured)
  | some raw =>
    (host.expandPath raw).mapError fun cause => .fault (.unexpandablePath raw cause)

/-- Loads the configuration and then the catalog. -/
def Session.load (host : Host) (i : Invocation) : Except Error Session := do
  let config ← loadConfig host i
  let path ← locateCatalog host i config
  let document ← readCatalog host path
  .ok { host, config, catalog := .ofDocument document }

namespace Session

/-- The operation of a name. -/
def operation (s : Session) (name : String) : Except Error Operation :=
  (s.catalog.operation name).mapError Error.fault

/-! ## Commands -/

/-- A text filled up with blanks to a width. -/
def padded (width : Nat) (s : String) : String :=
  s ++ String.ofList (List.replicate (width - s.length) ' ')

/-- The lines on an operation in the list of operations. -/
def operationLines (width : Nat) (op : Operation) : String :=
  "  " ++ padded width op.name ++ "  " ++ op.method ++ " " ++ op.path ++ "\n" ++
    if op.description.isEmpty then "" else "  " ++ padded width "" ++ "  " ++ op.description ++ "\n"

/-- The list of operations. Names are filled up to the size of the greatest one in bytes. -/
def list (s : Session) : String :=
  let width := (s.catalog.operations.map fun op => op.name.utf8ByteSize).foldl max 0
  "Operations in '" ++ s.catalog.name ++ "':\n" ++
    String.join (s.catalog.operations.map (operationLines width))

/-- The text of a value in a format, on lines of its own. -/
def render (format : OutputFormat) (v : Json) : String :=
  let text := match format with
    | .json => v.pretty
    | .yaml => v.yaml
  String.ofList (Unicode.trimEnd text.toList) ++ "\n"

/-- Summaries of the links of an operation. -/
def links (s : Session) (name : String) : Except Error Json := do
  let op ← s.operation name
  .ok (.array (op.links.map fun l => (LinkMemo.summary ⟨l, none, none⟩ s.catalog).toJson))

/-- What a call of an operation gives: the payload of its result, or of the result of the link that
is followed. -/
def call (s : Session) (name : String) (showHidden : Bool) (arguments : List String) :
    Except Error Json := do
  let op ← s.operation name
  let call ← Call.prepare s.host (s.config.source s.host) op.descriptor showHidden arguments
  let additional ← call.linkParameters.mapError fun issue => .usage [issue]
  let result ← (op.execute false call.inputs).mapError Error.fault
  match call.follow? with
  | none => .ok result.payload.output
  | some link =>
    let followed ← (op.follow s.catalog false result link additional).mapError Error.fault
    .ok followed.payload.output

/-- Completions of the last argument for an operation. -/
def complete (s : Session) (name : String) (showHidden : Bool) (arguments : List String) :
    Except Error String := do
  let op ← s.operation name
  let flags ← (Call.flagsFor op.descriptor showHidden).mapError Error.fault
  .ok (flags.completeLine arguments.dropLast (arguments.getLast?.getD "")).render

/-- What a command prints. -/
def perform (s : Session) (i : Invocation) : Except Error String :=
  match i.command with
  | .list => .ok s.list
  | .links operation => (s.links operation).map (render i.format)
  | .run operation arguments =>
    (s.call operation i.showHidden arguments).map (render i.format)
  | .complete operation arguments => s.complete operation i.showHidden arguments

end Session

/-! ## The program -/

/-- What the program leaves behind. -/
structure Outcome where
  /-- Zero if all went well, one if a command failed and two if the arguments are rejected. -/
  code : Nat
  stdout : String := ""
  stderr : String := ""

/-- The name of the program with its version. -/
def versionText : String := "relay-cli 0.1.0"

/-- How the program is called. -/
def usageText : String :=
  "Usage: relay [--catalog <FILE>] [--config-file <FILE>] [--json-errors] [-v]... " ++
    "[--show-hidden] [--format <FORMAT>] <COMMAND>\n\nCommands:\n" ++
    "  list                            List the operations of the catalog\n" ++
    "  run <OPERATION> [ARGS]...       Run an operation\n" ++
    "  links <OPERATION>               Describe the links of an operation\n" ++
    "  complete <OPERATION> [ARGS]...  Print completions for a partial command line\n"

/-- The structured form of an error as text. -/
def errorText (e : Error) : String :=
  Json.prettyMembersInOrder
    [("error_type", .string e.summary.type), ("message", .string e.summary.message),
      ("context", .optionalString e.summary.context)]

/-- What an error leaves behind. Help that was asked for is no failure. -/
def Outcome.ofError (jsonErrors : Bool) (e : Error) : Outcome :=
  match e with
  | .flagHelp _ text => { code := 0, stdout := text ++ "\n" }
  | .commandHelp => { code := 0, stdout := usageText ++ "\n" }
  | e => { code := 1, stderr := (if jsonErrors then errorText e else e.report) ++ "\n" }

/-- What is left behind if reading the arguments stops. -/
def Outcome.ofStop (s : Stop) : Outcome :=
  match s with
  | .help true => { code := 0, stdout := usageText }
  | .help false => { code := 2, stderr := usageText }
  | .version => { code := 0, stdout := versionText ++ "\n" }
  | .rejected r => { code := 2, stderr := r.message ++ "\n" }

/-- Runs the program with arguments. -/
def run (host : Host) (arguments : List String) : Outcome :=
  match readArguments host arguments with
  | .error stop => .ofStop stop
  | .ok i =>
    match (Session.load host i).bind fun s => s.perform i with
    | .ok text => { code := 0, stdout := text }
    | .error e => .ofError i.jsonErrors e

end ApiCommand.Program
