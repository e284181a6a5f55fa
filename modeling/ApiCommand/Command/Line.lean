import ApiCommand.Flag.Positional
import ApiCommand.Text.Split
import ApiCommand.Unicode.CaseMap

/-!
# Command lines

The arguments of a command are flags, each with a value, and positional arguments. The value of a
flag stands behind an equals sign or is the next argument, whatever that looks like. Behind a lone
`--` all arguments are positional.

Arguments that do not have this form are refused. The text of a refusal says what is wrong, what may
have been meant, and how the command is used, where the usage line shows the flags that were used
already, as long as they are not hidden.
-/

namespace ApiCommand

/-- Why arguments do not have the form of a command line. -/
inductive LineFault where
  /-- An argument looks like a flag, and no flag has the name. -/
  | unknownFlag (name : String)
  /-- An argument looks like flags of one letter each, and no flag has the first letter. -/
  | unknownLetter (letter : Char)
  /-- A flag without a value is given one. -/
  | unexpectedValue (value flag : String)
  /-- The last argument is a flag that needs a value. -/
  | valueMissing (flag tag : String)
  deriving DecidableEq

/-- The parts of a command line. -/
structure CommandLine where
  /-- Flags, by number, and their values, in order. -/
  occurrences : List (Nat × String) := []
  /-- Positional arguments, in order. -/
  positionals : List String := []

/-- Why reading a command line stops. -/
inductive LineStop where
  /-- The command line asks for help on the command. -/
  | help
  /-- The arguments are refused, behind the parts that could be read. -/
  | fault (f : LineFault) (before : CommandLine)

namespace CommandLine

/-- Puts a flag and its value in front. -/
def withFlag (l : CommandLine) (id : Nat) (value : String) : CommandLine :=
  { l with occurrences := (id, value) :: l.occurrences }

/-- Puts a positional argument in front. -/
def withPositional (l : CommandLine) (argument : String) : CommandLine :=
  { l with positionals := argument :: l.positionals }

/-- Puts a part in front of what is read. -/
def prepend (put : CommandLine → CommandLine) (r : Except LineStop CommandLine) :
    Except LineStop CommandLine :=
  match r with
  | .ok l => .ok (put l)
  | .error .help => .error .help
  | .error (.fault f before) => .error (.fault f (put before))

/-- The name of a flag and what stands behind its equals sign. -/
def splitFlag (body : List Char) : String × Option String :=
  match Text.cut '=' body with
  | none => (String.ofList body, none)
  | some (name, value) => (String.ofList name, some (String.ofList value))

/-- The flag of a name, among those that the command accepts. -/
def acceptedFlag? (s : FlagSet) (name : String) : Option Nat :=
  s.commandFlags.find? fun id => s.name id == name

/-- The name of the flag for help on the command, which takes no value. -/
def helpName : String := "help"

/-- The kind of value of a flag, as the command shows it. -/
def valueName (s : FlagSet) (id : Nat) : String :=
  ((s.flag? id).map fun f => Unicode.upperText f.typeTag).getD ""

/-- Reads a command line. -/
def read (s : FlagSet) (args : List String) : Except LineStop CommandLine :=
  match args with
  | [] => .ok {}
  | arg :: rest =>
    match arg.toList with
    | ['-', '-'] => .ok { positionals := rest }
    | '-' :: '-' :: body =>
      let (name, value) := splitFlag body
      match acceptedFlag? s name, value, rest with
      | some id, some value, rest => prepend (fun l => l.withFlag id value) (read s rest)
      -- The next argument is the value, whatever it looks like.
      | some id, none, value :: rest => prepend (fun l => l.withFlag id value) (read s rest)
      | some id, none, [] => .error (.fault (.valueMissing name (valueName s id)) {})
      | none, none, _ =>
        if name = helpName then .error .help else .error (.fault (.unknownFlag name) {})
      | none, some value, _ =>
        if name = helpName then .error (.fault (.unexpectedValue value helpName) {})
        else .error (.fault (.unknownFlag name) {})
    | '-' :: c :: _ =>
      if c = 'h' then .error .help else .error (.fault (.unknownLetter c) {})
    | _ => prepend (fun l => l.withPositional arg) (read s rest)

end CommandLine

/-! ## Refusals -/

namespace LineFault

/-- What is wrong. -/
def message (f : LineFault) : String :=
  match f with
  | unknownFlag name => "error: unexpected argument '--" ++ name ++ "' found"
  | unknownLetter letter => "error: unexpected argument '-" ++ String.ofList [letter] ++ "' found"
  | unexpectedValue value flag =>
    "error: unexpected value '" ++ value ++ "' for '--" ++ flag ++
      "' found; no more were expected"
  | valueMissing flag tag =>
    "error: a value is required for '--" ++ flag ++ " <" ++ tag ++
      ">' but none was supplied"

/-- The advice to mark an argument as a positional one. -/
def escapeTip (argument : String) : String :=
  "  tip: to pass '" ++ argument ++ "' as a value, use '-- " ++ argument ++ "'"

/-- What may have been meant; `similar` is the name that is most similar to that of an unknown
flag. -/
def tip? (f : LineFault) (similar : Option String) : Option String :=
  match f with
  | unknownFlag name =>
    some
      (match similar with
        | some other => "  tip: a similar argument exists: '--" ++ other ++ "'"
        | none => escapeTip ("--" ++ name))
  | unknownLetter letter => some (escapeTip ("-" ++ String.ofList [letter]))
  | unexpectedValue _ _ | valueMissing _ _ => none

/-- The text of a refusal. -/
def text (f : LineFault) (tip usage : Option String) : String :=
  String.intercalate "\n\n"
    (f.message :: tip.toList ++ usage.toList ++ ["For more information, try '--help'."])

end LineFault

/-- What of a command was used before its arguments were refused. -/
structure CommandUse where
  /-- The names of the flags, in order. The last may only be the one that was meant. -/
  flags : List String
  /-- There was a positional argument. -/
  hasPositional : Bool

namespace FlagSet

/-- The flag of a name is hidden. -/
def hides (s : FlagSet) (name : String) : Bool :=
  ((CommandLine.acceptedFlag? s name).bind s.flag?).any Flag.hidden

/-- How the usage line shows a flag. -/
def usageOf (s : FlagSet) (name : String) : String :=
  match CommandLine.acceptedFlag? s name with
  | some id => "--" ++ name ++ " <" ++ CommandLine.valueName s id ++ ">"
  | none => "--" ++ name

/-- What stands for all flags in the usage line: nothing if all are hidden. -/
def optionsMark (s : FlagSet) : List String :=
  if s.commandFlags.any fun id => !(s.flag? id).any Flag.hidden then ["[OPTIONS]"] else []

/-- The usage line. It shows the flags that were used and are not hidden, or else, if nothing was
used, that there are flags. -/
def usageLine (s : FlagSet) (used : CommandUse) : String :=
  let shown := used.flags.eraseDups.filter fun name => !s.hides name
  let flags :=
    if shown.isEmpty && !used.hasPositional then s.optionsMark else shown.map s.usageOf
  String.intercalate " " ("Usage:" :: s.command :: flags ++ ["[" ++ s.collectorName ++ "]..."])

/-- The name that is most similar to that of an unknown flag. -/
def similarName? (host : Host) (s : FlagSet) (f : LineFault) : Option String :=
  match f with
  | .unknownFlag name =>
    host.similarName? (s.commandFlags.map s.name ++ [CommandLine.helpName]) name
  | _ => none

/-- What the usage line in a refusal is made for. Some refusals have none. -/
def useBefore? (host : Host) (s : FlagSet) (f : LineFault) (before : CommandLine) :
    Option CommandUse :=
  let given := before.occurrences.map fun e => s.name e.1
  let hasPositional := !before.positionals.isEmpty
  match f with
  | .unknownFlag _ => some ⟨given ++ (s.similarName? host f).toList, hasPositional⟩
  | .unknownLetter _ => some ⟨[], false⟩
  | .unexpectedValue _ flag => some ⟨given ++ [flag], hasPositional⟩
  | .valueMissing _ _ => none

/-- What is said about arguments that are refused. -/
def refusal (host : Host) (s : FlagSet) (f : LineFault) (before : CommandLine) : String :=
  f.text (f.tip? (s.similarName? host f)) ((s.useBefore? host f before).map s.usageLine)

/-! ## Giving command lines to flags -/

/-- Gives the parts of a command line to the flags: first the values of flags, in order, then the
positional arguments. -/
def applyLine (host : Host) (s : FlagSet) (line : CommandLine) : FlagSet × List Issue :=
  let (next, issues) := s.setEach host line.occurrences
  let (last, more) := next.bindPositionals host line.positionals
  (last, issues ++ more)

/-- Reads arguments and gives them to the flags. A request for help or a wrong form leaves the flags
as they are. -/
def applyArguments (host : Host) (s : FlagSet) (args : List String) :
    Except Error (FlagSet × List Issue) :=
  match CommandLine.read s args with
  | .error .help => .error .commandHelp
  | .error (.fault f before) => .error (.usage [.unrecognized (s.refusal host f before)])
  | .ok line => .ok (s.applyLine host line)

end FlagSet

end ApiCommand
