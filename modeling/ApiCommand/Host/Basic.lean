import ApiCommand.Dict
import ApiCommand.Text.Utf8

/-!
# The host

What a command sees of the machine it runs on: environment variables and files, and what the
libraries on it have to say. All are plain data or functions, so that everything computed from them
is a function.
-/

namespace ApiCommand

/-- Why a file cannot be read. -/
inductive FileFault where
  /-- There is nothing under the path. -/
  | missing
  /-- The path leads through something that is not a directory. -/
  | notADirectory
  /-- The path names a directory. -/
  | isADirectory
  /-- A part of the path, or all of it, is too long for a name. -/
  | nameTooLong
  /-- The path contains the null character. -/
  | nullInPath
  /-- The user may not read the file. -/
  | permissionDenied
  /-- The content is not valid UTF-8. -/
  | notText
  deriving DecidableEq

/-- The wording of a fault. -/
def FileFault.message (f : FileFault) : String :=
  match f with
  | missing => "No such file or directory (os error 2)"
  | notADirectory => "Not a directory (os error 20)"
  | isADirectory => "Is a directory (os error 21)"
  | nameTooLong => "File name too long (os error 36)"
  | nullInPath => "file name contained an unexpected NUL byte"
  | permissionDenied => "Permission denied (os error 13)"
  | notText => "stream did not contain valid UTF-8"

/-- Environment variables, files, and the words of libraries. -/
structure Host where
  /-- The environment variables. -/
  environment : Dict String
  /-- The bytes of the file under a path. -/
  bytesOf : String → Except FileFault (List UInt8)
  /-- What the JSON reader says about a text that it does not accept. -/
  jsonComplaint? : String → Option String := fun _ => none
  /-- Which of some names the reader of command lines finds most similar to another name, if any. -/
  similarName? : List String → String → Option String := fun _ _ => none

namespace Host

/-- The value of an environment variable. -/
def getVariable? (host : Host) (name : String) : Option String := Dict.get? host.environment name

/-- The value of an environment variable, unless it is empty. -/
def nonemptyVariable? (host : Host) (name : String) : Option String :=
  (host.getVariable? name).filter fun value => !value.isEmpty

/-- The text of the file under a path. -/
def textOf (host : Host) (path : String) : Except FileFault String :=
  (host.bytesOf path).bind fun bytes =>
    match Text.Utf8.decode? bytes with
    | some text => .ok text
    | none => .error .notText

/-- There is a file under the path, whether the user may read it or not. -/
def hasFile (host : Host) (path : String) : Bool :=
  match host.bytesOf path with
  | .ok _ | .error .permissionDenied => true
  | .error _ => false

end Host

end ApiCommand
