import ApiCommand.Flag.Basic
import ApiCommand.Text.FlagName

/-!
# Help on flags

The usage line of a flag, the full help on it, and an example of a command line made from the
examples in the schemas.
-/

namespace ApiCommand

/-- What a schema says its values are for. -/
def Schema.usage (s : Schema) : String := Unicode.trimText (s.summary?.getD "")

/-- A value as it is written in an example: in quotation marks if it contains white space. -/
def quoteExample (v : Json) : String :=
  let text := v.plainText
  if text.toList.any Unicode.isWhiteSpace then "'" ++ text ++ "'" else text

namespace FlagSet

/-- What to call the value around a place: the opening of its description, or its flag. -/
def parentLabel (parent : Flag) (property : String) : String :=
  let label := ((parent.schema?.bind Schema.summary?).map Text.shortLabel).getD ""
  if label.isEmpty then parent.name ++ "'s " ++ property ++ " property" else label

/-- What the flag is for. A flag for an inner place also says how the flag around it can be used
instead. -/
def usage (s : FlagSet) (f : Flag) : String :=
  match f.role with
  | .external e => e.usage
  | .place p =>
    match p.parent.bind s.flag? with
    | none => p.schema.usage ++ (if p.required then " (required)" else "")
    | some parent =>
      parentLabel parent p.property ++ ": " ++ p.schema.usage ++ "\nThis is the same as '--" ++
        parent.name ++ "=" ++ p.property ++ "=<" ++ f.typeTag ++ ">'."

/-- The name of a flag and the kind of its value. -/
def heading (f : Flag) : String := "--" ++ f.name ++ " <" ++ f.typeTag ++ ">"

/-- The flags for the properties of the value of a flag. -/
def childrenOf (s : FlagSet) (id : Nat) : List Flag :=
  (s.children.filterMap s.flag?).filter fun f => f.place?.any fun p => p.parent == some id

/-- The lines of help that come from the schema of a flag. -/
def schemaHelp (s : FlagSet) (id : Nat) (schema : Schema) : List String :=
  let children := s.childrenOf id
  (if schema.enumValues.isEmpty then []
    else
      ["  Accepted values: " ++ String.intercalate ", " (schema.enumValues.map Json.plainText)]) ++
  (if children.isEmpty then []
    else ["  Properties: " ++ String.intercalate ", " (children.map heading)])

/-- Full help on a flag. -/
def help (s : FlagSet) (id : Nat) : String :=
  match s.flag? id with
  | none => ""
  | some f =>
    let usageLines := (Text.lines (s.usage f)).filter fun line => !line.isEmpty
    String.intercalate "\n"
      (heading f :: usageLines.map (fun line => "  " ++ line) ++
        ((f.schema?.map (s.schemaHelp id)).getD []) ++
        (f.defaultText?.toList.map fun text => "  Default: " ++ text) ++
        ["  Values starting with '@' are read from a JSON file, '%' from a plain file."])

/-- The example for the place of a flag: its own, or what the example of the next enclosing flag
that has one holds there. -/
def exampleOf (s : FlagSet) (f : Flag) : Option Json :=
  (s.flags.filter fun g => g.encloses f).foldl
    (fun found g =>
      match g.place? with
      | none => none
      | some p =>
        match p.schema.exampleValue with
        | some v => some v
        | none => found.bind fun v => v.member? p.property)
    none

/-- An argument of an example, and the name of its flag. -/
structure ExampleEntry where
  argument : String
  name : String
  deriving DecidableEq

/-- Arguments are ordered by their text and then by name. -/
def ExampleEntry.le (a b : ExampleEntry) : Bool :=
  a.argument < b.argument || (a.argument == b.argument && (a.name < b.name || a.name == b.name))

/-- The flag named `name` is covered by an argument for a flag inside of its value. -/
def covers (last name : String) : Bool := (name ++ ".").toList.isPrefixOf last.toList

/-- Leaves out every argument that the last one kept before it covers. -/
def dropCovered (last : Option String) (entries : List ExampleEntry) : List ExampleEntry :=
  match entries with
  | [] => []
  | e :: rest =>
    if last.any fun last => covers last e.name then dropCovered last rest
    else e :: dropCovered (some e.name) rest

/-- The arguments of the example, before any are left out. -/
def exampleEntries (s : FlagSet) : List ExampleEntry :=
  ((s.roots ++ s.children).filterMap s.flag?).filterMap fun f =>
    (s.exampleOf f).map fun v => ⟨"--" ++ f.name ++ "=" ++ quoteExample v, f.name⟩

/-- An example of the use of a command, or the empty text if no schema has an example. -/
def usageExample (s : FlagSet) (commandPath : String) : String :=
  let kept := dropCovered none (s.exampleEntries.mergeSort ExampleEntry.le)
  if kept.isEmpty then ""
  else
    "  " ++ commandPath ++ " " ++ String.intercalate " " (kept.map ExampleEntry.argument)

end FlagSet

end ApiCommand
