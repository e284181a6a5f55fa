import ApiCommand.Flag.Basic
import ApiCommand.Text.FlagName

/-!
# Flags for an operation

`FlagSet.ofOperation` makes a flag for each property of the parameters and configs of an operation,
and for each property inside of them as long as they are objects. A name that is taken already gets
a mark in front, once or as often as it takes to be free, so that no two flags share a name.
-/

namespace ApiCommand

/-- What a command needs to know of an operation. -/
structure Descriptor where
  name : String
  description : String := ""
  /-- What the values that belong to one call have to conform to. -/
  parameters : Schema
  /-- What the settings of the surroundings have to conform to. -/
  configs : Schema
  /-- The parameters that may be given by position, in order. -/
  positionals : List String := []
  /-- The parameters whose flags are left out of help and completion. -/
  hidden : List String := []

/-- The text `name` with `mark` in front as often as it takes to differ from the keys of `taken`.
At most `fuel` of them can be in the way. -/
def freshName {α : Type} (taken : Dict α) (mark : String) (fuel : Nat) (name : String) : String :=
  match fuel with
  | 0 => name
  | fuel + 1 =>
    if Dict.contains taken name then freshName taken mark fuel (mark ++ name) else name

namespace FlagSet

/-- The mark for names that are taken. -/
def conflictMark (isConfig : Bool) : String := if isConfig then "config." else "param."

/-- The name for a flag: the candidate, with marks in front if it is taken. -/
def nameFor (s : FlagSet) (isConfig : Bool) (candidate : String) : String :=
  freshName s.names (conflictMark isConfig) s.names.length candidate

/-- The candidate for the name of a property's flag. An underscore in front, which marks internal
settings, becomes a name of its own. -/
def rootCandidate (property : String) : String :=
  match property.toList with
  | '_' :: rest => Text.flagName ("control." ++ String.ofList rest)
  | _ => Text.flagName property

/-- The candidate for the name of the flag of a property inside of another flag's value. -/
def childCandidate (parentName property : String) : String :=
  parentName ++ "." ++ Text.flagName property

mutual

/-- Adds flags for the properties of an object around which the flag `parent` stands for. -/
def addChildren (s : FlagSet) (hidden : Bool) (parent : Nat) (parentName : String)
    (around : Place) (schema : Schema) : FlagSet :=
  match schema with
  | ⟨_, properties, required, _, _, _, _, _, _, _, _, _, _⟩ =>
    if schema.isObject then addEach s hidden parent parentName around required properties else s

/-- Adds flags for properties and for what is inside of them. -/
def addEach (s : FlagSet) (hidden : Bool) (parent : Nat) (parentName : String) (around : Place)
    (required : List String) (properties : List (String × Schema)) : FlagSet :=
  match properties with
  | [] => s
  | (property, schema) :: rest =>
    let name := s.nameFor around.isConfig (childCandidate parentName property)
    let place :=
      { property, schema, required := required.contains property, isConfig := around.isConfig
        root := around.root, path := around.path ++ [property], parent := some parent }
    let next := s.addPlace name hidden place
    -- The flag that was just added is the parent of what is inside of it.
    let next := addChildren next hidden s.flags.length name place schema
    addEach next hidden parent parentName around required rest

end

/-- Adds flags for a property of an operation and for what is inside of it. -/
def addProperty (s : FlagSet) (isConfig required hidden : Bool) (property : String)
    (schema : Schema) : FlagSet :=
  let name := s.nameFor isConfig (rootCandidate property)
  let place :=
    { property, schema, required, isConfig, root := s.flags.length, path := [], parent := none }
  addChildren (s.addPlace name hidden place) hidden s.flags.length name place schema

/-- Adds flags for the properties of a schema. -/
def addProperties (s : FlagSet) (isConfig : Bool) (hidden : List String) (schema : Schema) :
    FlagSet :=
  schema.properties.foldl
    (fun s (property, inner) =>
      s.addProperty isConfig (schema.requires property) (hidden.contains property) property inner)
    s

/-- The number of the flag for a parameter. -/
def parameterFlag? (s : FlagSet) (property : String) : Option Nat :=
  s.roots.find? fun id =>
    ((s.flag? id).bind Flag.place?).any fun p => !p.isConfig && p.property == property

/-- The numbers of the flags for parameters that are given by position, from an index on. -/
def positionalFlags (s : FlagSet) (operation : String) (index : Nat) (names : List String) :
    Except Fault (List Nat) :=
  match names with
  | [] => .ok []
  | name :: rest =>
    match s.parameterFlag? name with
    | none => .error (.unknownPositional index operation name)
    | some id => (s.positionalFlags operation (index + 1) rest).map (id :: ·)

/-- The set of external flags only: names that must not be used, and flags of the command itself. -/
def ofReserved (reserved : List String) (extras : List (String × External)) : FlagSet :=
  (reserved.map (fun name => (name, ({} : External))) ++ extras).foldl
    (fun s (name, e) => s.addExternal name e) {}

/-- The flags for an operation. -/
def ofOperation (op : Descriptor) (reserved : List String) (extras : List (String × External)) :
    Except Fault FlagSet :=
  let s := (ofReserved reserved extras).addProperties false op.hidden op.parameters
  (s.positionalFlags op.name 0 op.positionals).map fun positionals =>
    { s with command := op.name, positionals }.addProperties true [] op.configs

end FlagSet

end ApiCommand
