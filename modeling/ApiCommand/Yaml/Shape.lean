import ApiCommand.Yaml.Resolution

/-!
# YAML read by shape

What a node stands for depends on what is expected there. Where a text is expected, a scalar stands
for the text it is written with; a plain scalar that is empty stands for an empty list, dictionary
or record. Where anything may stand, a scalar has its own value. `Node.toJson?` turns a node into a
JSON value of a shape. Nodes may be nested 128 deep.
-/

namespace ApiCommand.Yaml

/-- What is expected of a node. Records are known by name. -/
inductive Shape (ρ : Type) where
  /-- A text. -/
  | text
  /-- A truth value. -/
  | truth
  /-- Null or something of a shape. -/
  | optional (shape : Shape ρ)
  /-- Anything. The keys of mappings are texts. -/
  | any
  /-- Anything. The keys of mappings have values of their own, which have to be texts. -/
  | free
  | list (item : Shape ρ)
  /-- A mapping from texts. Of two entries with one key the later counts. -/
  | dict (item : Shape ρ)
  /-- A mapping from the names of fields. No field occurs twice. -/
  | record (name : ρ)

/-- The fields of a record. -/
structure RecordShape (ρ : Type) where
  fields : List (String × Shape ρ)
  /-- Other keys have a meaning too. If not, they are ignored, and a sequence may give the fields in
  order. -/
  isOpen : Bool

namespace Node

/-- The text that a scalar is written with. -/
def text? (n : Node) : Option String :=
  match n with
  | scalar _ _ s => some s
  | _ => none

/-- The node is an empty plain scalar. -/
def isEmpty (n : Node) : Bool :=
  match n with
  | scalar _ plain s => plain && s.isEmpty
  | _ => false

/-- The truth value that a plain scalar is written as. -/
def truth? (n : Node) : Option Bool :=
  match n with
  | scalar _ true s => bool? s
  | _ => none

/-- The items of a sequence; none if nothing is written. -/
def items? (n : Node) : Option (List Node) :=
  match n with
  | sequence _ items => some items
  | n => if n.isEmpty then some [] else none

/-- The entries of a mapping; none if nothing is written. -/
def entries? (n : Node) : Option (List (Node × Node)) :=
  match n with
  | mapping _ entries => some entries
  | n => if n.isEmpty then some [] else none

/-- The key of an entry where keys have values of their own. -/
def freeKey? (n : Node) : Option String :=
  match n with
  | scalar tag plain s =>
    match scalarValue? tag plain s with
    | some (.string s) => some s
    | _ => none
  | _ => none

/-- No text occurs twice. -/
def allDifferent (texts : List String) : Bool :=
  match texts with
  | [] => true
  | s :: rest => !rest.contains s && allDifferent rest

/-- The value of a node where anything may stand. -/
def value? (depth : Nat) (key? : Node → Option String) (n : Node) : Option Json :=
  match depth, n with
  | _, scalar tag plain s => scalarValue? tag plain s
  | 0, _ => none
  | depth + 1, sequence tag items =>
    if tag = .foreign then none else (items.mapM (value? depth key?)).map Json.array
  | depth + 1, mapping tag entries =>
    if tag = .foreign then none
    else do
      let members ← entries.mapM fun e => do
        let key ← key? e.1
        let v ← value? depth key? e.2
        some (key, v)
      some (.ofMembers members)

/-- The entries of a record whose fields are given by a mapping, with the shapes of their values. -/
def namedFields? {ρ : Type} (r : RecordShape ρ) (n : Node) :
    Option (List (String × Shape ρ × Node)) := do
  let entries ← n.entries?
  let entries ← entries.mapM fun e => e.1.text?.map fun key => (key, e.2)
  let known := entries.filter fun e => (r.fields.lookup e.1).isSome
  if allDifferent (known.map Prod.fst) then
    some (entries.filterMap fun e =>
      match r.fields.lookup e.1 with
      | some shape => some (e.1, shape, e.2)
      | none => if r.isOpen then some (e.1, .free, e.2) else none)
  else none

/-- The entries of a record, with the shapes of their values. -/
def fields? {ρ : Type} (r : RecordShape ρ) (n : Node) : Option (List (String × Shape ρ × Node)) :=
  match n with
  | sequence _ items =>
    if r.isOpen || r.fields.length < items.length then none
    else some ((r.fields.zip items).map fun e => (e.1.1, e.1.2, e.2))
  | n => namedFields? r n

/-- The value of a node of a shape, given the fields of records. -/
def toJson? {ρ : Type} (recordOf : ρ → RecordShape ρ) (depth : Nat) (shape : Shape ρ) (n : Node) :
    Option Json :=
  match depth, shape with
  | _, .text => n.text?.map Json.string
  | _, .truth => n.truth?.map Json.bool
  | depth, .optional shape =>
    if n.isPlainNull then some .null else toJson? recordOf depth shape n
  | depth, .any => n.value? depth text?
  | depth, .free => n.value? depth freeKey?
  | 0, _ => none
  | depth + 1, .list item => do
    let items ← n.items?
    (items.mapM (toJson? recordOf depth item)).map Json.array
  | depth + 1, .dict item => do
    let entries ← n.entries?
    let members ← entries.mapM fun e => do
      let key ← e.1.text?
      let v ← toJson? recordOf depth item e.2
      some (key, v)
    some (.ofMembers members)
  | depth + 1, .record name => do
    let fields ← n.fields? (recordOf name)
    let members ← fields.mapM fun e => do
      let v ← toJson? recordOf depth e.2.1 e.2.2
      some (e.1, v)
    some (.ofMembers members)
termination_by (depth, sizeOf shape)

end Node

/-- Nodes may be nested this deep. -/
def maxDepth : Nat := 128

end ApiCommand.Yaml
