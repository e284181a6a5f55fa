import ApiCommand.Command.Line
import ApiCommand.Flag.Help
import ApiCommand.Flag.Synthesis

/-!
# Descriptions of commands

The command of an operation as its help presents it: what it is about, an example, and its
arguments, of which the last one collects all that are given by position.
-/

namespace ApiCommand

/-- An argument of a command. -/
structure CommandArgument where
  id : String
  /-- The name to be written behind two hyphens; positional arguments have none. -/
  long : Option String
  /-- What its value is called. -/
  valueName : String
  help : String
  hidden : Bool := false

/-- A command. -/
structure CommandDescription where
  name : String
  about : String
  /-- What help ends with. -/
  afterHelp : Option String
  arguments : List CommandArgument

namespace CommandDescription

/-- The name of the argument that collects positional arguments. -/
def collectorId : String := "__positional_args"

/-- The argument for a flag. -/
def argumentFor (s : FlagSet) (id : Nat) : Option CommandArgument :=
  (s.flag? id).map fun f =>
    { id := f.name, long := some f.name, valueName := CommandLine.valueName s id
      help := s.usage f, hidden := f.hidden }

/-- The argument that collects positional arguments. -/
def collector (s : FlagSet) : CommandArgument :=
  let names := s.positionalNames
  { id := collectorId, long := none
    valueName := s.collectorName
    help :=
      if names.isEmpty then "This command takes no positional arguments"
      else "Positional arguments: " ++ String.intercalate ", " names }

/-- The command of an operation, given its flags and how it is called. -/
def ofFlags (op : Descriptor) (s : FlagSet) (commandPath : String) : CommandDescription :=
  let usageExample := s.usageExample commandPath
  { name := op.name, about := op.description
    afterHelp := if usageExample.isEmpty then none else some ("Examples:\n" ++ usageExample)
    arguments := s.commandFlags.filterMap (argumentFor s) ++ [collector s] }

end CommandDescription

end ApiCommand
