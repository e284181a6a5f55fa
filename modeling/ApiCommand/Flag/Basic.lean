import ApiCommand.Error.Basic
import ApiCommand.Json.Printer
import ApiCommand.Value.Decode

/-!
# Flags

A flag set holds the flags of one command. A flag is either external, with a value of its own, or
stands for a place in a value that a schema describes: the place is a root flag, one for each
property of the operation, and a path of property names inside of its value. Flags with a path own
no value. Reading them reads the value of the root along the path, and setting them writes there.
-/

namespace ApiCommand

/-- The place in a described value that a flag stands for. -/
structure Place where
  /-- The property that the flag is named for. -/
  property : String
  /-- What the value at the place has to conform to. -/
  schema : Schema
  /-- The object around the place requires the property. -/
  required : Bool
  /-- The value belongs to the surroundings, not to one call. -/
  isConfig : Bool
  /-- The number of the root flag, which is the flag's own if it is a root. -/
  root : Nat
  /-- The way from the value of the root to the place; empty for a root. -/
  path : List String
  /-- The number of the flag for the object around the place; a root has none. -/
  parent : Option Nat

/-- A flag that no schema describes. -/
structure External where
  /-- What the flag is for. -/
  usage : String := ""
  /-- The value that is taken if none is given. -/
  default : Option String := none
  /-- The command accepts the flag; otherwise the flag only keeps its name from being used. -/
  owned : Bool := false
  /-- Values that are given one after another make an array. -/
  repeatable : Bool := false

/-- What a flag stands for. -/
inductive Role where
  | place (p : Place)
  | external (e : External)

/-- A flag and what is known of its value. -/
structure Flag where
  name : String
  role : Role
  /-- The flag is left out of help and completion. -/
  hidden : Bool := false
  /-- The value of a root flag or an external flag. -/
  value : Option Json := none
  /-- A value was given, or help was asked for, here or further inside. -/
  changed : Bool := false
  /-- Help was asked for in place of a value. -/
  helpRequested : Bool := false

namespace Flag

/-- The place the flag stands for, unless it is external. -/
def place? (f : Flag) : Option Place :=
  match f.role with
  | .place p => some p
  | .external _ => none

/-- The schema of the flag's value. -/
def schema? (f : Flag) : Option Schema := f.place?.map Place.schema

/-- The flag's value belongs to the surroundings. -/
def isConfig (f : Flag) : Bool := f.place?.any Place.isConfig

/-- The flag's value is required. -/
def isRequired (f : Flag) : Bool := f.place?.any Place.required

/-- The flag stands for a place inside of the value of another flag. -/
def isChild (f : Flag) : Bool := f.place?.any fun p => p.parent.isSome

/-- The command reads a value after the flag. -/
def takesValue (f : Flag) : Bool :=
  match f.role with
  | .place _ => true
  | .external e => e.owned

/-- The kind of value, for help and completion. -/
def typeTag (f : Flag) : String :=
  match f.schema? with
  | none => "string"
  | some s =>
    if !s.enumValues.isEmpty then "enum"
    else if s.format = some "file" then "file"
    else if s.format = some "directory" then "directory"
    else s.primaryType?.getD "any"

/-- The value that is taken if none is given, as a user would write it. -/
def defaultText? (f : Flag) : Option String :=
  match f.role with
  | .place p => p.schema.defaultValue.map Json.plainText
  | .external e => e.default

/-- The flag stands for the place of the other one or for an object around it. -/
def encloses (f g : Flag) : Bool :=
  match f.place?, g.place? with
  | some p, some q => p.root == q.root && p.path.isPrefixOf q.path
  | _, _ => false

end Flag

/-- The flags of a command. Flags are known by their numbers in the list. -/
structure FlagSet where
  flags : List Flag := []
  /-- The numbers of the flags by name. -/
  names : Dict Nat := []
  /-- Flags for the properties of the operation. -/
  roots : List Nat := []
  /-- Flags for places further inside. -/
  children : List Nat := []
  /-- External flags that the command accepts. -/
  extras : List Nat := []
  /-- The flags that positional arguments are for. -/
  positionals : List Nat := []
  /-- The name of the command. -/
  command : String := ""

namespace FlagSet

/-- The text that asks for help in place of a value. -/
def helpWord : String := "help"

/-- The flag with a number. -/
def flag? (s : FlagSet) (id : Nat) : Option Flag := s.flags[id]?

/-- The name of the flag with a number. -/
def name (s : FlagSet) (id : Nat) : String := ((s.flag? id).map Flag.name).getD ""

/-- The number of the flag with a name. -/
def lookup? (s : FlagSet) (name : String) : Option Nat := Dict.get? s.names name

/-- The flags that the command accepts. -/
def commandFlags (s : FlagSet) : List Nat := s.roots ++ s.children ++ s.extras

/-- Applies a function to the flag with a number. -/
def modify (s : FlagSet) (id : Nat) (f : Flag → Flag) : FlagSet :=
  { s with flags := s.flags.modify id f }

/-- Adds a flag. Its name stands for it from now on. -/
def push (s : FlagSet) (f : Flag) : FlagSet :=
  { s with
    flags := s.flags ++ [f]
    names := Dict.insert s.names f.name s.flags.length }

/-- Adds an external flag. -/
def addExternal (s : FlagSet) (name : String) (e : External) : FlagSet :=
  let next := s.push { name, role := .external e }
  if e.owned then { next with extras := next.extras ++ [s.flags.length] } else next

/-- Adds a flag for a place. -/
def addPlace (s : FlagSet) (name : String) (hidden : Bool) (p : Place) : FlagSet :=
  let id := s.flags.length
  let next := s.push { name, role := .place p, hidden }
  if p.parent.isNone then { next with roots := next.roots ++ [id] }
  else { next with children := next.children ++ [id] }

/-- No flag is left out of help and completion any more. -/
def revealHidden (s : FlagSet) : FlagSet :=
  { s with flags := s.flags.map fun f => { f with hidden := false } }

/-- The value that was given to a flag. -/
def value? (s : FlagSet) (id : Nat) : Option Json :=
  (s.flag? id).bind fun f =>
    match f.role with
    | .external _ => f.value
    | .place p => ((s.flag? p.root).bind Flag.value).bind (Json.project p.path)

/-- The flag has no value, and nothing was given to it. -/
def isUnset (s : FlagSet) (id : Nat) : Bool :=
  !(s.flag? id).any Flag.changed && (s.value? id).isNone

/-- The value of an external flag after a text is given to it. -/
def nextExternal (e : External) (current : Option Json) (raw : String) : Json :=
  if e.repeatable then .array (Value.currentItems current ++ [.string raw]) else .string raw

/-- Writes a value at the place of a flag. The flag and all flags that enclose it are changed. -/
def store (s : FlagSet) (f : Flag) (p : Place) (v : Json) : FlagSet :=
  let marked := s.flags.map fun g => if g.encloses f then { g with changed := true } else g
  { s with
    flags := marked.modify p.root fun root =>
      { root with value := some (Json.graft p.path v root.value) } }

/-- Gives a text to a flag. The help word only marks the flag. -/
def set (host : Host) (s : FlagSet) (id : Nat) (raw : String) : Except Issue FlagSet :=
  if raw = helpWord then
    .ok (s.modify id fun f => { f with helpRequested := true, changed := true })
  else
    match s.flag? id with
    | none => .ok s
    | some f =>
      match f.role with
      | .external e =>
        .ok (s.modify id fun f =>
          { f with value := some (nextExternal e f.value raw), changed := true })
      | .place p =>
        match p.schema.decode host (s.value? id) raw with
        | .ok v => .ok (s.store f p v)
        | .error fault => .error (.invalid f.name fault.message)

/-- Gives a text to a flag, keeping the flags as they are if it cannot be read. -/
def trySet (host : Host) (s : FlagSet) (id : Nat) (raw : String) : FlagSet × List Issue :=
  match s.set host id raw with
  | .ok next => (next, [])
  | .error issue => (s, [issue])

/-- Gives texts to flags, one after another. -/
def setEach (host : Host) (s : FlagSet) (entries : List (Nat × String)) : FlagSet × List Issue :=
  match entries with
  | [] => (s, [])
  | (id, raw) :: rest =>
    let (next, issues) := s.trySet host id raw
    let (last, more) := setEach host next rest
    (last, issues ++ more)

end FlagSet

end ApiCommand
