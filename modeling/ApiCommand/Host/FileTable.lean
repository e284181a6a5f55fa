import ApiCommand.Host.Basic
import ApiCommand.Text.Split

/-!
# Files in memory

The files below one directory, listed with their relative paths. `FileTable.bytesOf` finds a file
the way a path is walked: part by part, where `.` stays and `..` goes up, and only below
directories. Nothing is known of what lies outside of the directory.
-/

namespace ApiCommand

/-- A file: the parts of its path and its bytes. -/
structure StoredFile where
  /-- The parts of the path, from the directory down. -/
  path : List String
  /-- The content. -/
  bytes : List UInt8

/-- The files below a directory. -/
abbrev FileTable := List StoredFile

namespace FileTable

/-- The parts of a path. -/
def parts (path : String) : List String := (Text.pieces '/' path).filter fun part => !part.isEmpty

/-- The table of files given by relative paths and contents. -/
def ofList (files : List (String × List UInt8)) : FileTable :=
  files.map fun f => ⟨(parts f.1).filter (· != "."), f.2⟩

/-- The file at the place that parts lead to. -/
def file? (table : FileTable) (place : List String) : Option (List UInt8) :=
  (table.find? fun f => f.path == place).map StoredFile.bytes

/-- The place is the directory itself or one that holds a file. -/
def isDirectory (table : FileTable) (place : List String) : Bool :=
  place.isEmpty || table.any fun f => place.isPrefixOf f.path && place != f.path

/-- Walks on from a place. -/
def walk (table : FileTable) (place : List String) (parts : List String) :
    Except FileFault (List String) :=
  match parts with
  | [] => .ok place
  | part :: parts =>
    if table.isDirectory place then
      if 255 < part.utf8ByteSize then .error .nameTooLong
      else if part = "." then walk table place parts
      else if part = ".." then
        if place.isEmpty then .error .missing else walk table place.dropLast parts
      else walk table (place ++ [part]) parts
    else if (table.file? place).isSome then .error .notADirectory
    else .error .missing

/-- The bytes of the file under a path. A slash at the end asks for a directory. -/
def bytesOf (table : FileTable) (path : String) : Except FileFault (List UInt8) :=
  if path.toList.contains (Char.ofNat 0) then .error .nullInPath
  else if path.isEmpty then .error .missing
  else if 4095 < path.utf8ByteSize then .error .nameTooLong
  else if path.toList.all (· == '/') then .error .isADirectory
  else if path.toList.head? = some '/' then .error .missing
  else
    (walk table [] (parts path)).bind fun place =>
      if table.isDirectory place then .error .isADirectory
      else
        match table.file? place with
        | none => .error .missing
        | some bytes =>
          if path.toList.getLast? = some '/' then .error .notADirectory else .ok bytes

end FileTable

end ApiCommand
