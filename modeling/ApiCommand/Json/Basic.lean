import ApiCommand.Binary64.Basic
import ApiCommand.Dict

/-!
# JSON values

Numbers are either integers or binary floating-point numbers, and the two kinds are never equal:
`1` and `1.0` are different values. Objects are dictionaries, so the order in which their members
were written does not matter.
-/

namespace ApiCommand

/-- A JSON number. -/
inductive Number where
  /-- An integer of 64 bits, signed or unsigned. -/
  | int (value : Int)
  /-- A number that was written with a fraction or an exponent, or that is too large. -/
  | float (value : Binary64)
  deriving DecidableEq

namespace Number

/-- Equality of values within a kind of number. -/
def same (a b : Number) : Bool :=
  match a, b with
  | int m, int n => m == n
  | float x, float y => x.same y
  | _, _ => false

/-- The number has no fractional part. -/
def isInteger (n : Number) : Bool :=
  match n with
  | int _ => true
  | float x => x.isInteger

end Number

/-- A JSON value. -/
inductive Json where
  | null
  | bool (value : Bool)
  | number (value : Number)
  | string (value : String)
  | array (items : List Json)
  /-- The members form a dictionary. -/
  | object (members : List (String × Json))
  deriving Inhabited

namespace Json

/-- A value of one of the six kinds of JSON. -/
inductive Kind where
  | null | boolean | number | string | array | object
  deriving DecidableEq

/-- The kind of a value. -/
def kind (v : Json) : Kind :=
  match v with
  | null => .null
  | bool _ => .boolean
  | number _ => .number
  | string _ => .string
  | array _ => .array
  | object _ => .object

/-- The name of a kind in schemas and messages. -/
def Kind.name (k : Kind) : String :=
  match k with
  | null => "null"
  | boolean => "boolean"
  | number => "number"
  | string => "string"
  | array => "array"
  | object => "object"

/-- The kind with its article. -/
def Kind.phrase (k : Kind) : String :=
  match k with
  | null => "null"
  | boolean => "a boolean"
  | number => "a number"
  | string => "a string"
  | array => "an array"
  | object => "an object"

mutual

/-- Equality of values. It differs from equality of terms only in that the two floating-point zeros
are equal. -/
def same (a b : Json) : Bool :=
  match a, b with
  | null, null => true
  | bool x, bool y => x == y
  | number x, number y => x.same y
  | string x, string y => x == y
  | array xs, array ys => sameItems xs ys
  | object xs, object ys => sameMembers xs ys
  | _, _ => false

/-- `same` for the items of arrays. -/
def sameItems (xs ys : List Json) : Bool :=
  match xs, ys with
  | [], [] => true
  | x :: xs, y :: ys => same x y && sameItems xs ys
  | _, _ => false

/-- `same` for the members of objects. -/
def sameMembers (xs ys : List (String × Json)) : Bool :=
  match xs, ys with
  | [], [] => true
  | (k, x) :: xs, (l, y) :: ys => k == l && same x y && sameMembers xs ys
  | _, _ => false

end

/-- An integer value. -/
def int (n : Int) : Json := number (.int n)

/-- An integer value from a natural number. -/
def nat (n : Nat) : Json := int n

/-- The empty object. -/
def emptyObject : Json := object []

/-- The text, or null if there is none. -/
def optionalString (s : Option String) : Json :=
  match s with
  | none => null
  | some s => string s

/-- An array of texts. -/
def strings (texts : List String) : Json := array (texts.map string)

/-- An object from members in any order. -/
def ofMembers (members : List (String × Json)) : Json := object (Dict.ofList members)

/-- The members of an object; none for any other value. -/
def membersD (v : Json) : Dict Json :=
  match v with
  | object members => members
  | _ => []

/-- The value of a member of an object. -/
def member? (v : Json) (key : String) : Option Json := Dict.get? v.membersD key

/-- The value reached by a path of member names. -/
def project (path : List String) (v : Json) : Option Json :=
  match path with
  | [] => some v
  | key :: path => (v.member? key).bind (project path)

/-- The value with `item` written at a path of member names. Whatever stands on the way and is not
an object is replaced by one. -/
def graft (path : List String) (item : Json) (v : Option Json) : Json :=
  match path with
  | [] => item
  | key :: path =>
    let members := (v.map membersD).getD []
    object (Dict.insert members key (graft path item (Dict.get? members key)))

end Json

end ApiCommand
