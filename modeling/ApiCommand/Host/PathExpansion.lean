import ApiCommand.Host.Basic
import ApiCommand.Text.FlagName

/-!
# Expansion of paths

Paths that users write may start with `~` for their home directory and name environment variables as
`$NAME`, `${NAME}` or `${NAME:-default}`. Two dollar signs stand for one.
-/

namespace ApiCommand

/-- The character may occur in the name of a variable. -/
def isVariableChar (c : Char) : Bool := Text.isAlphanumeric c || c == '_'

/-- The parts of a text before and after the first `:-`. -/
def cutDefault (cs : List Char) : Option (List Char × List Char) :=
  match cs with
  | [] => none
  | ':' :: '-' :: rest => some ([], rest)
  | c :: rest => (cutDefault rest).map fun parts => (c :: parts.1, parts.2)

/-- A variable is not set. -/
structure UnsetVariable where
  /-- The name of the variable. -/
  name : String

/-- The wording of the fault. -/
def UnsetVariable.message (v : UnsetVariable) : String :=
  "error looking key '" ++ v.name ++ "' up: environment variable not found"

namespace Host

/-- The value of `${name}` or `${name:-default}`, given what stands between the braces. -/
def bracedValue (host : Host) (content : List Char) : Except UnsetVariable (List Char) :=
  let (name, fallback) :=
    match cutDefault content with
    | some (c :: name, fallback) => (c :: name, some fallback)
    | _ => (content, none)
  match host.getVariable? (String.ofList name), fallback with
  | some value, _ => .ok value.toList
  | none, some fallback => .ok fallback
  | none, none => .error ⟨String.ofList name⟩

/-- Replaces the variables in a text. The number bounds the work: every step uses up at least one
character. -/
def expandVariables (host : Host) (fuel : Nat) (cs : List Char) :
    Except UnsetVariable (List Char) :=
  match fuel, cs with
  | 0, cs => .ok cs
  | _, [] => .ok []
  | fuel + 1, '$' :: '{' :: rest =>
    match Text.cut '}' rest with
    | some (content, rest) => do
      let value ← host.bracedValue content
      let rest ← host.expandVariables fuel rest
      .ok (value ++ rest)
    | none => do
      let rest ← host.expandVariables fuel rest
      .ok ('$' :: '{' :: rest)
  | fuel + 1, '$' :: '$' :: rest => do
    let rest ← host.expandVariables fuel rest
    .ok ('$' :: rest)
  | fuel + 1, '$' :: rest =>
    let name := rest.takeWhile isVariableChar
    if name.isEmpty then do
      let rest ← host.expandVariables fuel rest
      .ok ('$' :: rest)
    else
      match host.getVariable? (String.ofList name) with
      | none => .error ⟨String.ofList name⟩
      | some value => do
        let rest ← host.expandVariables fuel (rest.dropWhile isVariableChar)
        .ok (value.toList ++ rest)
  | fuel + 1, c :: rest => do
    let rest ← host.expandVariables fuel rest
    .ok (c :: rest)

/-- Replaces a `~` in front that stands alone or before a slash by the home directory. -/
def expandHome (host : Host) (cs : List Char) : List Char :=
  match cs with
  | ['~'] => ((host.nonemptyVariable? "HOME").getD "~").toList
  | '~' :: '/' :: rest => ((host.nonemptyVariable? "HOME").getD "~").toList ++ '/' :: rest
  | cs => cs

/-- Expands a path. Only a `~` that the user wrote in front is expanded, not one that a variable
puts there. -/
def expandPath (host : Host) (path : String) : Except UnsetVariable String :=
  (host.expandVariables path.length path.toList).map fun cs =>
    String.ofList (if path.toList.head? = some '~' then host.expandHome cs else cs)

end Host

end ApiCommand
