import ApiCommand.Host.Basic
import ApiCommand.Text.Split

/-!
# Arguments of the program

The program has options of its own, which may stand before and behind the name of a command, and
commands with operands. Behind the first operand of an operation everything belongs to the
operation. An option counts that stands behind the name of a command, then one that stands before
it, and then the environment.
-/

namespace ApiCommand.Program

/-- How results are printed. -/
inductive OutputFormat where
  | json | yaml
  deriving DecidableEq

/-- The format of a name. -/
def OutputFormat.ofName? (name : String) : Option OutputFormat :=
  if name = "json" then some .json else if name = "yaml" then some .yaml else none

/-- An option with a value. -/
inductive Setting where
  | catalog | configFile | format
  deriving DecidableEq

/-- The name of an option with a value. -/
def Setting.name (s : Setting) : String :=
  match s with
  | catalog => "catalog"
  | configFile => "config-file"
  | format => "format"

/-- An option with a value as messages show it. -/
def Setting.shown (s : Setting) : String :=
  match s with
  | catalog | configFile => "--" ++ s.name ++ " <FILE>"
  | format => "--" ++ s.name ++ " <FORMAT>"

/-- An option without a value. -/
inductive Switch where
  | jsonErrors | showHidden
  deriving DecidableEq

/-- The name of an option without a value. -/
def Switch.name (s : Switch) : String :=
  match s with
  | jsonErrors => "json-errors"
  | showHidden => "show-hidden"

/-- An option without a value as messages show it. -/
def Switch.shown (s : Switch) : String := "--" ++ s.name

/-- Why arguments are rejected. -/
inductive Rejection where
  | valueMissing (shown : String)
  | invalidValue (value shown : String)
  | repeated (shown : String)
  | unexpectedValue (value shown : String)
  | unexpectedArgument (argument : String)
  | unknownCommand (name : String)
  | operandMissing
  | commandMissing
  deriving DecidableEq

/-- The wording of a rejection. -/
def Rejection.message (r : Rejection) : String :=
  match r with
  | valueMissing shown => "error: a value is required for '" ++ shown ++ "' but none was supplied"
  | invalidValue value shown => "error: invalid value '" ++ value ++ "' for '" ++ shown ++ "'"
  | repeated shown => "error: the argument '" ++ shown ++ "' cannot be used multiple times"
  | unexpectedValue value shown =>
    "error: unexpected value '" ++ value ++ "' for '" ++ shown ++ "' found; no more were expected"
  | unexpectedArgument argument => "error: unexpected argument '" ++ argument ++ "' found"
  | unknownCommand name => "error: unrecognized subcommand '" ++ name ++ "'"
  | operandMissing => "error: the following required arguments were not provided:"
  | commandMissing => "error: 'relay' requires a subcommand but one was not provided"

/-- A value that is not admitted. -/
def Rejection.ofValue (value shown : String) : Rejection :=
  if value.isEmpty then .valueMissing shown else .invalidValue value shown

/-- Why reading arguments stops. -/
inductive Stop where
  /-- Help is asked for, or nothing at all. -/
  | help (asked : Bool)
  /-- The version is asked for. -/
  | version
  | rejected (r : Rejection)

/-- The options of one level: before or behind the name of a command. -/
structure Options where
  catalog : Option String := none
  configFile : Option String := none
  format : Option OutputFormat := none
  jsonErrors : Option Bool := none
  showHidden : Option Bool := none
  /-- How often more logging was asked for. -/
  verbosity : Nat := 0

namespace Options

/-- Sets an option that must not be set already. -/
def setOnce {α : Type} (old : Option α) (shown : String) (v : α) : Except Stop (Option α) :=
  if old.isSome then .error (.rejected (.repeated shown)) else .ok (some v)

/-- Sets an option with a value. -/
def set (o : Options) (s : Setting) (value : String) : Except Stop Options :=
  match s with
  | .catalog => (setOnce o.catalog s.shown value).map fun catalog => { o with catalog }
  | .configFile => (setOnce o.configFile s.shown value).map fun configFile => { o with configFile }
  | .format =>
    if o.format.isSome then .error (.rejected (.repeated s.shown))
    else
      match OutputFormat.ofName? value with
      | some f => .ok { o with format := some f }
      | none => .error (.rejected (.ofValue value s.shown))

/-- Turns an option without a value on. -/
def turnOn (o : Options) (s : Switch) : Except Stop Options :=
  match s with
  | .jsonErrors => (setOnce o.jsonErrors s.shown true).map fun jsonErrors => { o with jsonErrors }
  | .showHidden => (setOnce o.showHidden s.shown true).map fun showHidden => { o with showHidden }

/-- Some option is set. -/
def isGiven (o : Options) : Bool :=
  o.catalog.isSome || o.configFile.isSome || o.format.isSome || o.jsonErrors.isSome ||
    o.showHidden.isSome || 0 < o.verbosity

/-- The options of an inner level, filled up with those of an outer one. -/
def within (inner outer : Options) : Options :=
  { catalog := inner.catalog.or outer.catalog
    configFile := inner.configFile.or outer.configFile
    format := inner.format.or outer.format
    jsonErrors := inner.jsonErrors.or outer.jsonErrors
    showHidden := inner.showHidden.or outer.showHidden
    verbosity := if 0 < inner.verbosity then inner.verbosity else outer.verbosity }

end Options

/-- The operands of a command. -/
inductive Operands where
  /-- There are none, but a command may follow. -/
  | command
  | nothing
  /-- The name of an operation. -/
  | operation
  /-- The name of an operation and its arguments. -/
  | operationArguments
  deriving DecidableEq

/-- A level that is being read. -/
structure Level where
  options : Options := {}
  /-- An option with a value that is not set yet, and the value, if it was read. -/
  pending : Option (Setting × Option String) := none
  operands : List String := []

namespace Level

/-- The next argument may be the value of an option. -/
def isWaiting (l : Level) : Bool :=
  match l.pending with
  | some (_, none) => true
  | _ => false

/-- Sets the option that is not set yet. -/
def settle (l : Level) : Except Stop Level :=
  match l.pending with
  | none => .ok l
  | some (s, none) => .error (.rejected (.valueMissing s.shown))
  | some (s, some value) =>
    (l.options.set s value).map fun options => { l with options, pending := none }

/-- Reads an option with a value, which stands behind an equals sign or is the next argument. -/
def readSetting (l : Level) (s : Setting) (value : Option String) : Except Stop Level := do
  let l ← l.settle
  match value with
  | none => .ok { l with pending := some (s, none) }
  | some value => (l.options.set s value).map fun options => { l with options }

/-- Reads an option without a value. -/
def readSwitch (l : Level) (s : Switch) (value : Option String) : Except Stop Level :=
  match value with
  | some value => .error (.rejected (.unexpectedValue value s.shown))
  | none => do
    let l ← l.settle
    (l.options.turnOn s).map fun options => { l with options }

/-- Reads an option that stops everything. -/
def readStop (l : Level) (stop : Stop) (shown : String) (value : Option String) :
    Except Stop Level :=
  match value with
  | some value => .error (.rejected (.unexpectedValue value shown))
  | none => do
    let _ ← l.settle
    .error stop

/-- Reads a long option. An option that is not known is `none`. -/
def readLong? (isOuter : Bool) (l : Level) (name : String) (value : Option String) :
    Option (Except Stop Level) :=
  match [Setting.catalog, .configFile, .format].find? fun s => s.name == name,
      [Switch.jsonErrors, .showHidden].find? fun s => s.name == name with
  | some s, _ => some (l.readSetting s value)
  | none, some s => some (l.readSwitch s value)
  | none, none =>
    if name = "help" then some (l.readStop (.help true) "--help" value)
    else if name = "version" ∧ isOuter then some (l.readStop .version "--version" value)
    else none

/-- Letters of short options. -/
def letters (isOuter : Bool) : List Char := ['v', 'h'] ++ if isOuter then ['V'] else []

/-- Reads short options. -/
def readShort (isOuter : Bool) (l : Level) (cs : List Char) : Except Stop Level :=
  match cs with
  | [] => .ok l
  | c :: rest =>
    if c = 'v' then do
      let l ← l.settle
      let verbosity := min 255 (l.options.verbosity + 1)
      readShort isOuter { l with options := { l.options with verbosity } } rest
    else if c = 'h' then l.readStop (.help true) "-h" none
    else if c = 'V' ∧ isOuter then l.readStop .version "-V" none
    else .error (.rejected (.unexpectedArgument (String.ofList ['-', c])))

end Level

/-- The names of commands. -/
def commandNames : List String := ["list", "run", "links", "complete", "help"]

namespace Operands

/-- Further arguments belong to the operation. -/
def takesRest (o : Operands) (l : Level) : Bool :=
  o == .operationArguments && !l.operands.isEmpty

/-- Takes an operand. -/
def take (o : Operands) (l : Level) (argument : String) : Except Stop Level :=
  match o with
  | .command => .error (.rejected (.unknownCommand argument))
  | .nothing => .error (.rejected (.unexpectedArgument argument))
  | .operation | .operationArguments =>
    if l.operands.isEmpty || o == .operationArguments then
      l.settle.map fun l => { l with operands := l.operands ++ [argument] }
    else .error (.rejected (.unexpectedArgument argument))

/-- Takes all arguments behind a lone `--`. -/
def takeAll (o : Operands) (l : Level) (arguments : List String) : Except Stop Level :=
  match o, arguments with
  | _, [] => .ok l
  | .command, argument :: _ =>
    .error (.rejected
      (if commandNames.contains argument then .unexpectedArgument argument
      else .unknownCommand argument))
  | o, argument :: rest => do
    let l ← o.take l argument
    o.takeAll l rest

/-- What an argument is. -/
inductive Reading where
  /-- An option, read already. -/
  | option (l : Except Stop Level)
  /-- Something that looks like an option and is none. -/
  | unknown (shown : String)
  /-- Neither of them. -/
  | word

/-- The name of a long option and what stands behind its equals sign. -/
def splitLong (body : List Char) : String × Option String :=
  match Text.cut '=' body with
  | none => (String.ofList body, none)
  | some (name, value) => (String.ofList name, some (String.ofList value))

/-- What an argument is at a level. -/
def reading (o : Operands) (l : Level) (argument : String) : Reading :=
  let isOuter := o == .command
  match argument.toList with
  | '-' :: '-' :: body =>
    let (name, value) := splitLong body
    match l.readLong? isOuter name value with
    | some l => .option l
    | none => .unknown ("--" ++ name)
  | '-' :: c :: cs =>
    if (c :: cs).all (Level.letters isOuter).contains || !o.takesRest l then
      .option (l.readShort isOuter (c :: cs))
    else .unknown (String.ofList ['-', c])
  | _ => .word

/-- Reads arguments up to the name of a command. What looks like an option and is none may be the
value of an option or the first of the arguments of an operation, where these may stand. -/
def read (o : Operands) (l : Level) (arguments : List String) :
    Except Stop (Level × List String) :=
  match arguments with
  | [] => .ok (l, [])
  | argument :: rest =>
    let word : Except Stop (Level × List String) :=
      match l.pending with
      -- An option before this word still waits for its value.
      | some (s, none) => o.read { l with pending := some (s, some argument) } rest
      | _ =>
        -- Behind its name, everything belongs to the operation.
        if o.takesRest l then (o.takeAll l (argument :: rest)).map fun l => (l, [])
        else (o.take l argument).bind fun l => o.read l rest
    -- The name of a command ends the outer level.
    if o = .command ∧ !l.isWaiting ∧ commandNames.contains argument then .ok (l, argument :: rest)
    else if argument = "--" then (o.takeAll l rest).map fun l => (l, [])
    else
      match o.reading l argument with
      | .option l => l.bind fun l => o.read l rest
      | .unknown shown =>
        if o.takesRest l then word else .error (.rejected (.unexpectedArgument shown))
      | .word => word

end Operands

/-! ## Commands -/

/-- A command of the program. -/
inductive Command where
  | list
  | run (operation : String) (arguments : List String)
  | links (operation : String)
  | complete (operation : String) (arguments : List String)

/-- What the program is called for. -/
structure Invocation where
  catalog : Option String
  configFile : Option String
  format : OutputFormat
  jsonErrors : Bool
  showHidden : Bool
  verbosity : Nat
  command : Command

/-- The truth value that an environment variable gives to a switch, if it is set. -/
def switchVariable? (host : Host) (name : String) (s : Switch) : Except Stop (Option Bool) :=
  match host.getVariable? name with
  | none => .ok none
  | some "true" => .ok (some true)
  | some "false" => .ok (some false)
  | some value => .error (.rejected (.ofValue value s.shown))

/-- The environment variable for hidden flags counts at a level that does not set the switch. -/
def hiddenVariable? (host : Host) (o : Options) : Except Stop (Option Bool) :=
  if o.showHidden.isSome then .ok none
  else switchVariable? host "RELAY_SHOW_HIDDEN" .showHidden

/-- The operands of the command of a name. -/
def operandsOf (name : String) : Operands :=
  if name = "links" then .operation
  else if name = "list" then .nothing
  else .operationArguments

/-- The command of a name with its operands. -/
def commandOf? (name : String) (operands : List String) : Option Command :=
  match name, operands with
  | "list", _ => some .list
  | "links", operation :: _ => some (.links operation)
  | "complete", operation :: arguments => some (.complete operation arguments)
  | _, operation :: arguments => some (.run operation arguments)
  | _, [] => none

/-- Help on a command that is named behind the word for help. -/
def helpOn (names : List String) : Stop :=
  match names with
  | [] => .help true
  | [name] => if commandNames.contains name then .help true else .rejected (.unknownCommand name)
  | name :: other :: _ =>
    .rejected (.unknownCommand (if commandNames.contains name then other else name))

/-- Reads the command and what stands behind it. -/
def readCommand (host : Host) (name : String) (arguments : List String) :
    Except Stop (Options × Option Bool × Command) := do
  let (l, _) ← (operandsOf name).read {} arguments
  let l ← l.settle
  let hidden ← hiddenVariable? host l.options
  match commandOf? name l.operands with
  | none => .error (.rejected .operandMissing)
  | some command => .ok (l.options, hidden, command)

/-- Reads the arguments of the program. -/
def readArguments (host : Host) (arguments : List String) : Except Stop Invocation := do
  let (outer, rest) ← Operands.command.read {} arguments
  match rest with
  | [] =>
    let outer ← outer.settle
    let hidden ← hiddenVariable? host outer.options
    if outer.options.isGiven || hidden.isSome || (host.getVariable? "RELAY_CATALOG").isSome then
      .error (.rejected .commandMissing)
    else .error (.help false)
  | name :: rest =>
    if name = "help" then .error (helpOn rest)
    else
      let (inner, hidden, command) ← readCommand host name rest
      let outer ← outer.settle
      let _ ← hiddenVariable? host outer.options
      let options := inner.within outer.options
      .ok
        { catalog := options.catalog.or (host.getVariable? "RELAY_CATALOG")
          configFile := options.configFile
          format := options.format.getD .json
          jsonErrors := options.jsonErrors.getD false
          showHidden := (options.showHidden.or hidden).getD false
          verbosity := options.verbosity
          command }

end ApiCommand.Program
