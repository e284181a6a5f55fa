import ApiCommand.Flag.Basic

/-!
# Positional arguments

Arguments without a flag in front go to the positional flags. If exactly one of these takes an
array, it is the expanding slot: the flags before it get the first arguments, the flags behind it
the last ones, and the slot gets what is left in between. Otherwise the arguments fill the flags
that are still unset, from left to right.
-/

namespace ApiCommand

/-- The positional flag that takes any number of arguments. -/
inductive ExpandSlot where
  /-- No flag takes an array. -/
  | none
  /-- The flag at an index takes an array. -/
  | at (index : Nat)
  /-- Several flags take an array, and so none of them expands. -/
  | ambiguous
  deriving DecidableEq

/-- The index of the slot. -/
def ExpandSlot.index? (slot : ExpandSlot) : Option Nat :=
  match slot with
  | .at index => some index
  | .none | .ambiguous => Option.none

/-- Why positional arguments cannot be given to flags at all. -/
inductive PositionalFault where
  /-- The command has no positional flags. -/
  | notAccepted (args : List String)
  /-- There are more arguments than positional flags. -/
  | tooMany (limit given : Nat)
  /-- There are more arguments than positional flags that are still unset. -/
  | tooFewUnset (args : List String)

/-- The wording of a fault. -/
def PositionalFault.message (f : PositionalFault) : String :=
  match f with
  | notAccepted args =>
    "this command does not accept positional arguments, " ++ toString args.length ++ " given: " ++
      String.intercalate " " args
  | tooMany limit given =>
    "this command receives at most " ++ toString limit ++ " positional arguments, " ++
      toString given ++ " given"
  | tooFewUnset args =>
    "this command has one or more invalid positional arguments, given: " ++
      String.intercalate " " args

namespace FlagSet

/-- The flag takes an array. -/
def takesArray (s : FlagSet) (id : Nat) : Bool :=
  ((s.flag? id).bind Flag.schema?).any Schema.isArray

/-- The expanding slot. -/
def expandSlot (s : FlagSet) : ExpandSlot :=
  match (List.range s.positionals.length).filter fun i =>
      (s.positionals[i]?).any s.takesArray with
  | [] => .none
  | [index] => .at index
  | _ => .ambiguous

/-- The names of the positional flags; dots mark the expanding slot. -/
def positionalNames (s : FlagSet) : List String :=
  s.positionals.mapIdx fun i id =>
    if s.expandSlot.index? = some i then s.name id ++ "..." else s.name id

/-- What help and usage call all positional arguments together. -/
def collectorName (s : FlagSet) : String :=
  if s.positionalNames.isEmpty then "ARGS" else String.intercalate " " s.positionalNames

/-- Gives an argument to a flag that is still unset; otherwise the argument is dropped. -/
def setIfUnset (host : Host) (s : FlagSet) (id : Nat) (arg : String) : FlagSet × List Issue :=
  if s.isUnset id then s.trySet host id arg else (s, [])

/-- Gives each argument to its flag if that is still unset. -/
def setEachIfUnset (host : Host) (s : FlagSet) (entries : List (Nat × String)) :
    FlagSet × List Issue :=
  match entries with
  | [] => (s, [])
  | (id, arg) :: rest =>
    let (next, issues) := s.setIfUnset host id arg
    let (last, more) := setEachIfUnset host next rest
    (last, issues ++ more)

/-- Gives the arguments to the positional flags that are still unset. -/
def bindFixed (host : Host) (s : FlagSet) (args : List String) : FlagSet × List Issue :=
  let refuse (f : PositionalFault) : FlagSet × List Issue := (s, [.positional f.message])
  let unset := s.positionals.filter s.isUnset
  if args.isEmpty then (s, [])
  else if s.positionals.isEmpty then refuse (.notAccepted args)
  else if s.positionals.length < args.length then
    refuse (.tooMany s.positionals.length args.length)
  else if unset.length < args.length then refuse (.tooFewUnset args)
  else s.setEach host (unset.zip args)

/-- Gives the arguments to the flags before the slot at index `k`, then, once there are enough of
them, to the flags behind it and to the slot itself. -/
def bindExpanding (host : Host) (s : FlagSet) (k : Nat) (args : List String) :
    FlagSet × List Issue :=
  let leading := s.positionals.take k
  let trailing := s.positionals.drop (k + 1)
  -- The flags before the slot are served first, even if arguments run out.
  let (s₁, issues₁) := s.setEachIfUnset host (leading.zip args)
  -- The flags behind the slot get theirs only if there are enough for all of them.
  if k + trailing.length ≤ args.length then
    let rest := args.drop k
    let middle := rest.take (rest.length - trailing.length)
    let last := rest.drop (rest.length - trailing.length)
    let (s₂, issues₂) := s₁.setEachIfUnset host (trailing.zip last)
    let slot := s.positionals[k]?.toList
    let (s₃, issues₃) := s₂.setEach host (slot.flatMap fun id => middle.map fun arg => (id, arg))
    (s₃, issues₁ ++ issues₂ ++ issues₃)
  else (s₁, issues₁)

/-- Gives positional arguments to the positional flags. -/
def bindPositionals (host : Host) (s : FlagSet) (args : List String) : FlagSet × List Issue :=
  match s.expandSlot.index? with
  | some k => s.bindExpanding host k args
  | none => s.bindFixed host args

end FlagSet

end ApiCommand
