import ApiCommand.Host.PathExpansion
import ApiCommand.Json.Pointer

/-!
# Faults

What can go wrong apart from the way a command is used: in the description of an operation, in the
configuration, the catalog, a link or on the way to the service. Each fault has an area, a wording,
and possibly details and advice.
-/

namespace ApiCommand

/-- The part of the program that a fault belongs to. -/
inductive Area where
  | programming | validation | config | linkResolution | catalog | transport
  deriving DecidableEq

namespace Area

/-- The name of an area in structured output. -/
def name (a : Area) : String :=
  match a with
  | programming => "Programming"
  | validation => "Validation"
  | config => "Config"
  | linkResolution => "LinkResolution"
  | catalog => "Catalog"
  | transport => "Transport"

/-- The heading of faults of an area. -/
def label (a : Area) : String :=
  match a with
  | programming => "Programming Error"
  | validation => "Validation Error"
  | config => "Configuration Error"
  | linkResolution => "Link Resolution Error"
  | catalog => "Catalog Error"
  | transport => "Transport Error"

end Area

/-- A fault. -/
inductive Fault where
  /-- A positional argument of an operation names no parameter. -/
  | unknownPositional (index : Nat) (operation property : String)
  /-- A path parameter has no value. -/
  | missingPathParameter (parameter operation : String)
  /-- The text is no runtime expression. -/
  | invalidExpression (text : String)
  /-- The expression asks a response for something other than headers and body. -/
  | notInResponse (text : String)
  /-- A path names a variable that is not set. -/
  | unexpandablePath (path : String) (cause : UnsetVariable)
  /-- The configuration file that the user names does not exist. -/
  | configFileMissing (path : String)
  /-- The configuration file is not what it should be. -/
  | configMalformed (path : String)
  /-- No catalog is named anywhere. -/
  | catalogNotConfigured
  /-- The catalog does not exist. -/
  | catalogFileMissing (path : String)
  /-- Two operations of a catalog have the same identifier. -/
  | repeatedIdentifier (id : String)
  /-- Two operations of a catalog have the same name. -/
  | repeatedName (name : String)
  /-- The catalog has no operation of the name. -/
  | unknownOperation (name : String) (available : List String)
  /-- The operation has no link of the name. -/
  | unknownLink (operation link : String)
  /-- The link leads to no operation. -/
  | unreachableTarget (link : String)
  /-- The values given in addition to those of a link do not conform. -/
  | additionalParameters (link : String) (problems : List String)
  /-- The text is no pointer. -/
  | malformedPointer (pointer : String)
  /-- The value cannot be written at the pointer. -/
  | unwritable (pointer : String) (obstacle : Pointer.Obstacle)
  /-- The call was cancelled before the request was sent. -/
  | cancelled (method url : String)
  /-- A fault that is described in words only. -/
  | described (area : Area) (message : String) (details suggestion : Option String)

namespace Fault

/-- The area of a fault. -/
def area (f : Fault) : Area :=
  match f with
  | unknownPositional _ _ _ => .programming
  | missingPathParameter _ _ | invalidExpression _ | notInResponse _ => .validation
  | unexpandablePath _ _ | configFileMissing _ | configMalformed _ => .config
  | catalogNotConfigured | catalogFileMissing _ | repeatedIdentifier _ | repeatedName _
  | unknownOperation _ _ => .catalog
  | unknownLink _ _ | unreachableTarget _ | additionalParameters _ _ | malformedPointer _
  | unwritable _ _ => .linkResolution
  | cancelled _ _ => .transport
  | described area _ _ _ => area

/-- The wording of a fault in the description of an operation. -/
def programmingMessage (reason : String) : String := "programming error: " ++ reason

/-- The advice on a fault in the description of an operation. -/
def programmingAdvice : String :=
  "The operation descriptor is malformed. Please report it with the command you were running."

/-- The wording of a fault. -/
def message (f : Fault) : String :=
  match f with
  | unknownPositional index operation property =>
    programmingMessage
      ("positional argument " ++ toString index ++ " of '" ++ operation ++ "' refers to '" ++
        property ++ "', which is not a parameter property")
  | missingPathParameter parameter operation =>
    "missing path parameter '" ++ parameter ++ "' for operation '" ++ operation ++ "'"
  | invalidExpression text => "invalid runtime expression '" ++ text ++ "'"
  | notInResponse text =>
    "invalid runtime expression '" ++ text ++ "': responses only expose headers and body"
  | unexpandablePath path cause => "cannot expand path '" ++ path ++ "': " ++ cause.message
  | configFileMissing path => "configuration file '" ++ path ++ "' does not exist"
  | configMalformed path => path ++ ": TOML parse error"
  | catalogNotConfigured => "no operation catalog configured"
  | catalogFileMissing path => "catalog file '" ++ path ++ "' does not exist"
  | repeatedIdentifier id => "operation id '" ++ id ++ "' is declared more than once"
  | repeatedName name => "operation name '" ++ name ++ "' is declared more than once"
  | unknownOperation name _ => "operation '" ++ name ++ "' not found in catalog"
  | unknownLink operation link =>
    "operation '" ++ operation ++ "' has no link named '" ++ link ++ "'"
  | unreachableTarget link => "link '" ++ link ++ "' has no reachable target operation"
  | additionalParameters link _ =>
    "additional parameters passed to link '" ++ link ++ "' are invalid"
  | malformedPointer pointer => "malformed json pointer: '" ++ pointer ++ "'"
  | unwritable pointer _ => "failed to set json pointer '" ++ pointer ++ "'"
  | cancelled method url => "request " ++ method ++ " " ++ url ++ " was cancelled"
  | described _ message _ _ => message

/-- What else is known of a fault. -/
def details? (f : Fault) : Option String :=
  match f with
  | additionalParameters _ problems => some (String.intercalate "; " problems)
  | unwritable _ obstacle => some obstacle.message
  | described _ _ details _ => details
  | _ => none

/-- What the user can do about a fault. -/
def suggestion? (f : Fault) : Option String :=
  match f with
  | unknownPositional _ _ _ => some programmingAdvice
  | configFileMissing _ =>
    some "Check the --config-file argument or the RELAY_CONFIG environment variable."
  | catalogNotConfigured =>
    some
      "Pass --catalog <file>, set RELAY_CATALOG, or add `catalog = \"...\"` to the config file."
  | unknownOperation _ [] => some "The catalog declares no operations."
  | unknownOperation _ available =>
    some ("Available operations: " ++ String.intercalate ", " available)
  | unknownLink operation _ =>
    some ("Use 'relay links " ++ operation ++ "' to list the available links.")
  | described _ _ _ suggestion => suggestion
  | _ => none

/-- A fault in the description of an operation, in words. -/
def programming (reason : String) : Fault :=
  described .programming (programmingMessage reason) none (some programmingAdvice)

end Fault

end ApiCommand
