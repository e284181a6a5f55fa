import ApiCommand.Program.Session

/-!
# The command line

Runs the program with the arguments of the process. All files that the arguments and the
configuration can lead to are read first; what is done with them is decided by `Program.run`.
-/

namespace ApiCommand.Program

/-- The error number of reading a directory as a file. -/
def directoryError : UInt32 := 21

/-- The fault that a failure to read a file is. -/
def fileFaultOf (e : IO.Error) : FileFault :=
  match e with
  | .permissionDenied .. => .permissionDenied
  | .inappropriateType _ code _ =>
    if code = directoryError then .isADirectory else .notADirectory
  | _ => .missing

/-- Reads the file under a path. -/
def readFile (path : String) : IO (Except FileFault (List UInt8)) := do
  if path.toList.contains (Char.ofNat 0) then
    return .error .nullInPath
  else
    try
      return .ok (← IO.FS.readBinFile path).toList
    catch e =>
      return .error (fileFaultOf e)

/-- The environment variables of a text that lists them with null characters between them. -/
def variablesOf (text : String) : Dict String :=
  Dict.ofList ((Text.pieces (Char.ofNat 0) text).filterMap (Text.cutText '='))

/-- The environment variables of the process. -/
def readEnvironment : IO (Dict String) := do
  try
    let bytes ← IO.FS.readBinFile "/proc/self/environ"
    return variablesOf (Text.Utf8.decodeLossy bytes.toList)
  catch _ =>
    return []

/-- A machine of which only some files were read. -/
def hostWith (environment : Dict String)
    (files : List (String × Except FileFault (List UInt8))) : Host :=
  { environment, bytesOf := fun path => (files.lookup path).getD (.error .missing) }

/-- Reads files. -/
def readAll (paths : List String) : IO (List (String × Except FileFault (List UInt8))) :=
  paths.mapM fun path => return (path, ← readFile path)

/-- The texts behind the marks for files in an argument. -/
def markedPaths (cs : List Char) : List String :=
  match cs with
  | [] => []
  | c :: rest =>
    (if c = '@' ∨ c = '%' then [String.ofList rest] else []) ++ markedPaths rest

/-- The paths of the configuration files that an invocation can use. -/
def configPaths (host : Host) (i : Invocation) : List String :=
  ((Config.namedPath? host i.configFile).bind fun raw => (host.expandPath raw).toOption).toList ++
    (Config.defaultPath? (Config.directory? host)).toList

/-- The paths of the catalogs that an invocation can use. -/
def catalogPaths (host : Host) (i : Invocation) : List String :=
  match loadConfig host i with
  | .error _ => []
  | .ok config => ((locateCatalog host i config).toOption).toList

/-- The paths of the files whose content can be a value. -/
def valuePaths (host : Host) (args : List String) : List String :=
  (args.flatMap fun arg => markedPaths arg.toList).filterMap fun raw =>
    (host.expandPath raw).toOption

/-- The machine with all files that an invocation can use. -/
def gatherHost (args : List String) : IO Host := do
  let environment ← readEnvironment
  let bare := hostWith environment []
  match readArguments bare args with
  | .error _ => return bare
  | .ok i =>
    let configs ← readAll (configPaths bare i)
    let catalogs ← readAll (catalogPaths (hostWith environment configs) i)
    let values ← readAll (valuePaths bare args)
    return hostWith environment (configs ++ catalogs ++ values)

end ApiCommand.Program

/-- Runs the program. -/
def main (args : List String) : IO UInt32 := do
  let outcome := ApiCommand.Program.run (← ApiCommand.Program.gatherHost args) args
  (← IO.getStdout).putStr outcome.stdout
  (← IO.getStderr).putStr outcome.stderr
  return outcome.code.toUInt32
