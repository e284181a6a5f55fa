import ApiCommand.Json.Basic

/-!
# Reading records from JSON

Readers of single values return `none` for a value of the wrong shape. A field of a record is
required, optional (absent or null), or has a default that only absence stands for.
-/

namespace ApiCommand.Json

/-- The text of a string. -/
def asString? (v : Json) : Option String :=
  match v with
  | string s => some s
  | _ => none

/-- The truth value of a boolean. -/
def asBool? (v : Json) : Option Bool :=
  match v with
  | bool b => some b
  | _ => none

/-- The items of an array. -/
def asArray? (v : Json) : Option (List Json) :=
  match v with
  | array items => some items
  | _ => none

/-- The members of an object. -/
def asObject? (v : Json) : Option (Dict Json) :=
  match v with
  | object members => some members
  | _ => none

/-- A natural number below `bound`. -/
def asNatBelow? (bound : Nat) (v : Json) : Option Nat :=
  match v with
  | number (.int n) => if 0 ≤ n ∧ n < bound then some n.toNat else none
  | _ => none

/-- The value, unless it is null. -/
def notNull? (v : Json) : Option Json :=
  match v with
  | null => none
  | v => some v

/-- Reads every item of an array. -/
def listOf? {α : Type} (read : Json → Option α) (v : Json) : Option (List α) :=
  v.asArray?.bind fun items => items.mapM read

/-- Reads the value of every member of an object. -/
def dictOf? {α : Type} (read : Json → Option α) (v : Json) : Option (Dict α) :=
  v.asObject?.bind fun members => members.mapM fun e => (read e.2).map fun x => (e.1, x)

/-- Reads a list of texts. -/
def texts? (v : Json) : Option (List String) := listOf? asString? v

/-- Reads a dictionary of texts. -/
def textDict? (v : Json) : Option (Dict String) := dictOf? asString? v

/-- The fields of a record: the members of an object, or the items of an array in the order of the
field names. -/
def recordOf? (fields : List String) (v : Json) : Option (Dict Json) :=
  match v with
  | object members => some members
  | array items =>
    if items.length ≤ fields.length then some (Dict.ofList (fields.zip items)) else none
  | _ => none

/-- Reads a field that has to be there. -/
def required {α : Type} (read : Json → Option α) (record : Dict Json) (key : String) : Option α :=
  (Dict.get? record key).bind read

/-- Reads a field that may be absent or null. -/
def optional {α : Type} (read : Json → Option α) (record : Dict Json) (key : String) :
    Option (Option α) :=
  match Dict.get? record key with
  | none | some null => some none
  | some v => (read v).map some

/-- Reads a field that may be absent, but not null. -/
def defaulted {α : Type} (read : Json → Option α) (default : α) (record : Dict Json)
    (key : String) : Option α :=
  match Dict.get? record key with
  | none => some default
  | some v => read v

/-- The text as a member, unless it is absent. -/
def textMember (key : String) (s : Option String) : List (String × Json) :=
  s.toList.map fun s => (key, string s)

/-- The value as a member, unless it is absent. -/
def valueMember (key : String) (v : Option Json) : List (String × Json) :=
  v.toList.map fun v => (key, v)

/-- The texts as a member, unless there are none. -/
def textsMember (key : String) (texts : List String) : List (String × Json) :=
  if texts.isEmpty then [] else [(key, strings texts)]

end ApiCommand.Json
