import ApiCommand.Command.Line
import ApiCommand.Flag.Resolution
import ApiCommand.Flag.Synthesis

/-!
# Calls

A call of an operation from a command line: `Call.prepare` makes the flags of the operation, gives
the arguments to them and resolves their values. The issues of all steps are reported together, and
a flag whose value could not be read is not also reported as missing.
-/

namespace ApiCommand

/-- A call that is ready to be made. -/
structure Call where
  /-- The flags after the arguments were given to them. -/
  flags : FlagSet
  inputs : Inputs

namespace Call

/-- The flag that names the link to follow with the result of a call. -/
def followFlag : String := "follow"

/-- The flag for values that are needed to follow a link. -/
def linkFlag : String := "link-param"

/-- The names that flags of operations must not have. -/
def reservedNames : List String := ["help"]

/-- The flags that calls have besides those of the operation. -/
def ownFlags : List (String × External) :=
  [(followFlag, { usage := "Follow the named link with the result of this call", owned := true }),
    (linkFlag,
      { usage := "Additional parameter for the followed link, as key=value (repeatable)"
        owned := true, repeatable := true })]

/-- The flags for calls of an operation. -/
def flagsFor (op : Descriptor) (showHidden : Bool) : Except Fault FlagSet :=
  (FlagSet.ofOperation op reservedNames ownFlags).map fun s =>
    if showHidden then s.revealHidden else s

/-- The value of the flag with a name. -/
def flagValue? (s : FlagSet) (name : String) : Option Json := (s.lookup? name).bind s.value?

/-- The link to follow. -/
def follow? (call : Call) : Option String :=
  match flagValue? call.flags followFlag with
  | some (.string link) => some link
  | _ => none

/-- Reads the values for a link, each written `key=value`; of two values for one key the later
counts. -/
def readPairs (d : Dict Json) (entries : List Json) : Except Issue (Dict Json) :=
  match entries with
  | [] => .ok d
  | .string entry :: rest =>
    match Text.cutText '=' entry with
    | none => .error (.invalid linkFlag ("expected key=value, got '" ++ entry ++ "'"))
    | some (key, raw) => readPairs (Dict.insert d key (Json.parseLoose raw)) rest
  | _ :: rest => readPairs d rest

/-- The values that are given for the link to follow. -/
def linkParameters (call : Call) : Except Issue (Dict Json) :=
  match flagValue? call.flags linkFlag with
  | some (.array entries) => readPairs [] entries
  | _ => .ok []

/-- A later issue without the flags that earlier ones name. -/
def withoutReported (reported : List String) (issue : Issue) : Option Issue :=
  match issue with
  | .missing names =>
    let names := names.filter fun name => !reported.contains name
    if names.isEmpty then none else some (.missing names)
  | issue => some issue

/-- Earlier and later issues in one list. -/
def mergeIssues (earlier later : List Issue) : List Issue :=
  earlier ++ later.filterMap (withoutReported (earlier.flatMap Issue.flags))

/-- Resolves the values of flags after arguments were given to them. -/
def finish (source : ValueSource) (s : FlagSet) (issues : List Issue) : Except Error Call :=
  match s.resolve source, issues with
  -- Help and other stops of resolution count more than the issues before them.
  | .ok inputs, [] => .ok ⟨s, inputs⟩
  | .ok _, issues => .error (.usage issues)
  | .error (.usage later), issues => .error (.usage (mergeIssues issues later))
  | .error e, _ => .error e

/-- Prepares a call of an operation. -/
def prepare (host : Host) (source : ValueSource) (op : Descriptor) (showHidden : Bool)
    (args : List String) : Except Error Call := do
  let s ← (flagsFor op showHidden).mapError Error.fault
  let (s, issues) ← s.applyArguments host args
  finish source s issues

end Call

end ApiCommand
