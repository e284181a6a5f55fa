import ApiCommand.Flag.Positional
import ApiCommand.Text.FlagName

/-!
# Completion

What a shell may offer for the word that is being typed: candidates, hints that are shown only, and
a directive that says what the shell should do besides.
-/

namespace ApiCommand

/-- What the shell should do besides offering candidates, as a set of bits. -/
structure Directive where
  bits : Nat
  deriving DecidableEq

namespace Directive

/-- The shell may complete names of files. -/
def files : Directive := ⟨0⟩

/-- The shell does not complete names of files. -/
def noFiles : Directive := ⟨4⟩

/-- The shell completes names of directories only. -/
def directories : Directive := ⟨16⟩

/-- Both directives. -/
def union (a b : Directive) : Directive := ⟨a.bits ||| b.bits⟩

end Directive

/-- What a shell may offer. -/
structure Completion where
  candidates : List String := []
  /-- Hints that are shown and not inserted. -/
  hints : List String := []
  directive : Directive := .noFiles

/-- The text that the shell reads: the candidates, the hints with a mark, and the directive. -/
def Completion.render (c : Completion) : String :=
  String.join (c.candidates.map fun text => text ++ "\n") ++
    String.join (c.hints.map fun text => "_activeHelp_ " ++ text ++ "\n") ++
    ":" ++ toString c.directive.bits ++ "\n"

/-- The first group of texts that is not empty: those that start with `part`, those that contain it,
and all. -/
def matching (texts : List String) (part : String) : List String :=
  let starting := texts.filter fun t => part.toList.isPrefixOf t.toList
  let containing := texts.filter fun t => Text.occurs part.toList t.toList
  if !starting.isEmpty then starting
  else if !containing.isEmpty then containing
  else texts

namespace FlagSet

/-- The candidates and the directive for the value of a flag. -/
def valueCandidates (f : Flag) (part : String) : List String × Directive :=
  let tag := f.typeTag
  if tag = "file" then ([], .files)
  else if tag = "directory" then ([], .directories)
  else if tag = "enum" then
    let values := (f.schema?.map Schema.enumValues).getD []
    (matching (values.map Json.plainText) part, .noFiles)
  else
    let fromFile := part.toList.head? == some '@' || part.toList.head? == some '%'
    ((f.defaultText?.filter fun text => !text.isEmpty).toList,
      if fromFile then .files else .noFiles)

/-- Completion of the value of a flag. -/
def completeValue (f : Flag) (part : String) : Completion :=
  let (candidates, directive) := valueCandidates f part
  { candidates, directive }

/-- The hint for a positional flag: its name and what its schema says. -/
def hintFor (f : Flag) : String :=
  let description := (f.schema?.bind Schema.summary?).getD ""
  if description.isEmpty then f.name else f.name ++ " (" ++ description ++ ")"

/-- Completion of one of several positional flags, of which the first is the expanding slot. -/
def completeAny (slot : Flag) (trailing : List Flag) (part : String) : Completion :=
  let offers := (slot :: trailing).map fun f => valueCandidates f part
  let hint :=
    String.intercalate " or " (("multiple " ++ hintFor slot) :: trailing.map hintFor)
  { candidates := (offers.map Prod.fst).flatten
    hints := ["The following arguments are accepted: " ++ hint]
    directive := (offers.map Prod.snd).foldl Directive.union .files }

/-- Completion of the positional argument that follows others. -/
def completePositional (s : FlagSet) (args : List String) (part : String) : Completion :=
  let flags := s.positionals.filterMap s.flag?
  if flags.isEmpty then { hints := ["This command does not take any arguments"] }
  else
    let single : Completion :=
      match flags[args.length]? with
      | none => { hints := ["This command does not take any more arguments"] }
      | some f => { completeValue f part with hints := [hintFor f] }
    match s.expandSlot.index? with
    | none => single
    | some k =>
      if args.length < k then single
      else
        match flags.drop k with
        | [] => single
        | slot :: trailing => completeAny slot trailing part

/-- Puts texts in ascending order and drops repetitions. -/
def sortUnique (texts : List String) : List String :=
  Dict.keys (Dict.ofList (texts.map fun t => (t, ())))

/-- Completion of the name of a flag. -/
def completeName (s : FlagSet) (part : String) : Completion :=
  let shown := (s.commandFlags.filterMap s.flag?).filter fun f => !f.hidden
  let names := (shown.map Flag.name).filter fun name => part.toList.isPrefixOf name.toList
  { candidates := sortUnique (names.map fun name => "--" ++ name) }

/-- What words on a command line leave open: the flag that waits for its value, and the positional
arguments so far. -/
structure Scan where
  pending : Option Nat := none
  positionals : List String := []

/-- Goes over one more word. -/
def Scan.step (s : FlagSet) (scan : Scan) (word : String) : Scan :=
  if scan.pending.isSome then { scan with pending := none }
  else
    match word.toList with
    | '-' :: '-' :: flag =>
      if flag.contains '=' then scan
      else
        { scan with
          pending := (s.lookup? (String.ofList flag)).filter fun id =>
            (s.flag? id).any Flag.takesValue }
    | _ => { scan with positionals := scan.positionals ++ [word] }

/-- Completion of the last word of a command line, given the words before it. -/
def completeLine (s : FlagSet) (words : List String) (part : String) : Completion :=
  let scan := words.foldl (Scan.step s) {}
  match scan.pending.bind s.flag? with
  | some f => if f.schema?.isSome then completeValue f part else {}
  | none =>
    match part.toList with
    | '-' :: '-' :: flag =>
      match Text.cut '=' flag with
      | none => s.completeName (String.ofList flag)
      | some (name, valuePart) =>
        match (s.lookup? (String.ofList name)).bind s.flag? with
        | none => {}
        | some f =>
          let c := completeValue f (String.ofList valuePart)
          let mark := "--" ++ String.ofList name ++ "="
          { c with candidates := c.candidates.map fun text => mark ++ text }
    | _ => s.completePositional scan.positionals part

end FlagSet

end ApiCommand
