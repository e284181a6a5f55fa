import ApiCommand.Exchange.Basic
import ApiCommand.Flag.Help
import ApiCommand.Schema.Validation

/-!
# Resolution

The effective value of a root flag is the one that was given, or for a config the one that the
surroundings have, or the default of the schema. `FlagSet.resolve` collects the effective values,
and all issues with them.
-/

namespace ApiCommand

/-- Values of configs by the name of the property. -/
abbrev ValueSource := String → Option Json

namespace FlagSet

/-- The value that the flag with number `id` stands for in the end. -/
def effectiveValue? (s : FlagSet) (source : ValueSource) (id : Nat) (f : Flag) (p : Place) :
    Option Json :=
  let given := if f.changed then s.value? id else none
  let surrounding := if p.isConfig then source p.property else none
  (given.or surrounding).or p.schema.defaultValue

/-- What resolution has collected so far. -/
structure Resolution where
  inputs : Inputs := {}
  /-- Values that do not conform. -/
  invalid : List Issue := []
  /-- Required flags without a value. -/
  missing : List String := []

/-- Takes the value of a conforming flag. -/
def Resolution.take (r : Resolution) (p : Place) (v : Json) : Resolution :=
  let inputs :=
    if p.isConfig then { r.inputs with configs := Dict.insert r.inputs.configs p.property v }
    else { r.inputs with parameters := Dict.insert r.inputs.parameters p.property v }
  { r with inputs }

/-- Resolves one root flag. -/
def resolveFlag (s : FlagSet) (source : ValueSource) (r : Resolution) (id : Nat) : Resolution :=
  match s.flag? id with
  | none => r
  | some f =>
    match f.place? with
    | none => r
    | some p =>
      match s.effectiveValue? source id f p with
      | none => if p.required then { r with missing := r.missing ++ [f.name] } else r
      | some v =>
        let complaints := p.schema.complaints v
        if complaints.isEmpty then r.take p v
        else
          { r with
            invalid := r.invalid ++ [.invalid f.name (String.intercalate "; " complaints)] }

/-- The issues that resolution has found. -/
def Resolution.issues (r : Resolution) : List Issue :=
  r.invalid ++ (if r.missing.isEmpty then [] else [.missing r.missing])

/-- The first flag for a place that help was asked for. -/
def helpFlag? (s : FlagSet) : Option Nat :=
  (s.roots ++ s.children).find? fun id => (s.flag? id).any Flag.helpRequested

/-- The values of all flags for places. -/
def resolve (s : FlagSet) (source : ValueSource) : Except Error Inputs :=
  match s.helpFlag? with
  | some id => .error (.flagHelp (s.name id) (s.help id))
  | none =>
    let r := s.roots.foldl (s.resolveFlag source) {}
    if r.issues.isEmpty then .ok r.inputs else .error (.usage r.issues)

end FlagSet

end ApiCommand
