import TraceWatch.Command.Run

/-!
# The program

The program collects the environment and the files that a run may read, and then does what
`CommandLine.run` says.
-/

namespace TraceWatch.Program

/-- Why a path cannot be read. -/
def fileError (error : IO.Error) : FileError :=
  match error with
  | .inappropriateType _ 21 _ => .directory
  | .inappropriateType _ _ _ => .throughFile
  | .permissionDenied _ _ _ => .denied
  | .otherError 36 _ => .nameTooLong
  | .invalidArgument _ 36 _ => .nameTooLong
  | _ => .missing

/-- What reading a path gives. -/
def readPath (path : String) : IO (Except FileError String) := do
  if path.toList.contains '\x00' then return .error .zeroCharacter
  match ← (IO.FS.readBinFile path).toBaseIO with
  | .error error => return .error (fileError error)
  | .ok octets =>
    match String.fromUTF8? octets with
    | some text => return .ok text
    | none => return .error .notText

/-- What reading each of some paths gives. -/
def readPaths (paths : List String) : IO Files := do
  let found ← paths.mapM fun path => return (path, ← readPath path)
  return fun path => ((found.find? (·.1 = path)).map Prod.snd).getD (.error .missing)

/-- The variables of the given names. -/
def readEnvironment (names : List String) : IO Environment :=
  names.filterMapM fun name => return (← IO.getEnv name).map (name, ·)

/-- The paths that a run may read. -/
def pathsOf (environment : Environment) (arguments : List String) : List String :=
  match Invocation.read environment arguments with
  | .error _ => []
  | .ok invocation => invocation.paths environment

end TraceWatch.Program

open TraceWatch in
/-- Runs the program. -/
def main (arguments : List String) : IO UInt32 := do
  let here ← Program.readPaths [CommandLine.environmentFile]
  let mentioned := match here CommandLine.environmentFile with
    | .ok text => EnvironmentFile.mentioned text
    | .error _ => []
  let environment ← Program.readEnvironment (CommandLine.variablesRead ++ mentioned)
  let whole := CommandLine.environmentOf here environment
  let files ← Program.readPaths
    (CommandLine.environmentFile :: Program.pathsOf whole arguments)
  let output := CommandLine.run files environment arguments
  (← IO.getStdout).putStr output.stdout
  (← IO.getStderr).putStr output.stderr
  return UInt32.ofNat output.exit
