import ApiCommand.Json.Pointer
import ApiCommand.Json.Printer
import ApiCommand.Schema.Basic

/-!
# Validation

`Schema.problems` collects everything that is wrong with a value, each problem with the place where
it is and the way in which the schema is violated there. A value that is null where it must not be,
or of a wrong type, is not looked into any further.
-/

namespace ApiCommand

/-- A way in which a value violates a schema. -/
inductive Violation where
  /-- The value is null. -/
  | nullValue
  /-- The value is of none of the admitted types. -/
  | typeMismatch (expected : List String) (found : Json.Kind)
  /-- The value is none of the admitted ones. -/
  | notAdmitted (value : Json) (admitted : List Json)
  /-- A required property is missing. -/
  | missingProperty (name : String)
  /-- The value stands under a property that a closed schema does not declare. -/
  | undeclared

/-- A violation and the place of the offending value. -/
structure Problem where
  /-- The pointer to the value. -/
  path : List String
  /-- What is wrong there. -/
  violation : Violation

namespace Violation

/-- The wording of a violation. -/
def message (v : Violation) : String :=
  match v with
  | nullValue => "value must not be null"
  | typeMismatch expected found =>
    "expected " ++ String.intercalate " or " expected ++ ", got " ++ found.name
  | notAdmitted value admitted =>
    "value " ++ value.text ++ " is not one of [" ++
      String.intercalate ", " (admitted.map Json.text) ++ "]"
  | missingProperty name => "missing required property '" ++ name ++ "'"
  | undeclared => "unexpected property"

end Violation

namespace Problem

/-- The place as text; the whole value is at `/`. -/
def location (p : Problem) : String :=
  match p.path with
  | [] => "/"
  | path => Pointer.text path

/-- The wording of a problem. -/
def message (p : Problem) : String := p.location ++ ": " ++ p.violation.message

end Problem

namespace Schema

/-- The value is of the named type. Numbers without fractional part are integers, and names that
are not known admit everything. -/
def isOfType (name : String) (v : Json) : Bool :=
  if name = "integer" then
    match v with
    | .number n => n.isInteger
    | _ => false
  else if name ∈ ["null", "boolean", "number", "string", "array", "object"] then
    v.kind.name == name
  else true

/-- Null conforms to the schema. -/
def admitsNull (s : Schema) : Bool := s.types.isEmpty || s.nullable || s.hasType "null"

/-- A value that is not null is of an admitted type. -/
def admitsType (s : Schema) (v : Json) : Bool :=
  s.types.isEmpty || s.types.any fun name => isOfType name v

/-- The value is an admitted one. -/
def admitsValue (s : Schema) (v : Json) : Bool :=
  s.enumValues.isEmpty || s.enumValues.any fun w => w.same v

/-- The problem of a value that is not among the admitted ones. -/
def enumProblems (s : Schema) (path : List String) (v : Json) : List Problem :=
  if s.admitsValue v then [] else [⟨path, .notAdmitted v s.enumValues⟩]

/-- The problems of required properties that an object lacks. -/
def missingProblems (s : Schema) (path : List String) (members : Dict Json) : List Problem :=
  (s.required.filter fun name => !Dict.contains members name).map fun name =>
    ⟨path, .missingProperty name⟩

mutual

/-- The problems of the value at `path`. -/
def problemsAt (s : Schema) (path : List String) (v : Json) : List Problem :=
  match v with
  | .null => if s.admitsNull then [] else [⟨path, .nullValue⟩]
  | .object members =>
    if s.admitsType (.object members) then
      s.enumProblems path (.object members) ++ s.missingProblems path members ++
        memberProblems s path members
    else [⟨path, .typeMismatch s.types .object⟩]
  | .array items =>
    if s.admitsType (.array items) then
      s.enumProblems path (.array items) ++
        match s.items with
        | none => []
        | some item => itemProblems item path 0 items
    else [⟨path, .typeMismatch s.types .array⟩]
  | v =>
    if s.admitsType v then s.enumProblems path v
    else [⟨path, .typeMismatch s.types v.kind⟩]

/-- The problems of the items of an array, from an index on. -/
def itemProblems (s : Schema) (path : List String) (index : Nat) (items : List Json) :
    List Problem :=
  match items with
  | [] => []
  | item :: rest =>
    problemsAt s (path ++ [toString index]) item ++ itemProblems s path (index + 1) rest

/-- The problems of the members of an object. -/
def memberProblems (s : Schema) (path : List String) (members : List (String × Json)) :
    List Problem :=
  match members with
  | [] => []
  | (key, v) :: rest =>
    (match s.property? key with
      | some property => problemsAt property (path ++ [key]) v
      | none => if s.isOpen then [] else [⟨path ++ [key], .undeclared⟩]) ++
    memberProblems s path rest

end

/-- The problems of a value. -/
def problems (s : Schema) (v : Json) : List Problem := problemsAt s [] v

/-- The value has no problems. -/
def accepts (s : Schema) (v : Json) : Bool := (s.problems v).isEmpty

/-- The wordings of the problems of a value. -/
def complaints (s : Schema) (v : Json) : List String := (s.problems v).map Problem.message

end Schema

end ApiCommand
