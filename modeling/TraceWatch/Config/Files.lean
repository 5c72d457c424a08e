import TraceWatch.Config.Document
import TraceWatch.Config.Environment
import TraceWatch.Text.Quoted

/-!
# Where a configuration comes from

A configuration is read from the file that is named, or else from the first file that is found in
one of the usual places, or else has its default values. Whatever its origin, the environment
overrides it. The files are seen through a function that tells what reading a path gives.
-/

namespace TraceWatch

/-- Why a path cannot be read. -/
inductive FileError where
  | missing
  | directory
  /-- A file stands where the path asks for a directory. -/
  | throughFile
  | nameTooLong
  /-- The file may not be read. -/
  | denied
  /-- The path holds a character that no path holds. -/
  | zeroCharacter
  /-- The octets of the file are not those of a text. -/
  | notText
deriving DecidableEq, Repr

/-- The message of a path that cannot be read. -/
def FileError.message : FileError → String
  | .missing => "No such file or directory (os error 2)"
  | .directory => "Is a directory (os error 21)"
  | .throughFile => "Not a directory (os error 20)"
  | .nameTooLong => "File name too long (os error 36)"
  | .denied => "Permission denied (os error 13)"
  | .notText => "stream did not contain valid UTF-8"
  | .zeroCharacter => "file name contained an unexpected NUL byte"

/-- What reading a path gives. -/
abbrev Files := String → Except FileError String

/-- Whether what a path leads to is there, even if it cannot be read. -/
def FileError.isThere : FileError → Bool
  | .directory => true
  | .denied => true
  | .notText => true
  | _ => false

/-- Whether a path leads to a file or a directory. -/
def Files.has (files : Files) (path : String) : Bool :=
  match files path with
  | .ok _ => true
  | .error error => error.isThere

/-- Why no configuration could be loaded. -/
inductive LoadError where
  /-- A file found could not be read. -/
  | unreadable (error : FileError)
  /-- The text of a file found is no configuration. -/
  | malformed
  /-- The file named could not be read. -/
  | namedUnreadable (path : String) (error : FileError)
  /-- The text of the file named is no configuration. -/
  | namedMalformed (path : String)
deriving DecidableEq, Repr

namespace LoadError

/-- What a message says about a text that is no configuration. -/
def notAConfiguration : String := "not a configuration"

/-- The message of a configuration that could not be loaded. -/
def message : LoadError → String
  | unreadable error => error.message
  | malformed => notAConfiguration
  | namedUnreadable path error =>
    "Failed to load config at " ++ Text.quotedPath path ++ ": " ++ error.message
  | namedMalformed path =>
    "Failed to load config at " ++ Text.quotedPath path ++ ": " ++ notAConfiguration

end LoadError

namespace ServiceConfig

/-- The variable that names the file of a configuration. -/
def pathVariable : String := "MONITOR_CONFIG_PATH"

/-- The usual places of a configuration, after the one that the environment names. -/
def usualPaths : List String := ["./monitor-config.yaml", "/etc/agent-monitor/config.yaml"]

/-- The places where a configuration is looked for. -/
def places (environment : Environment) : List String :=
  (environment.value? pathVariable).toList ++ usualPaths

/-- The first place where a configuration is. -/
def discover (files : Files) (environment : Environment) : Option String :=
  (places environment).find? files.has

/-- Loads the configuration of the file named, or else of the one found, or else the default
one. -/
def load (files : Files) (environment : Environment) (path : Option String) :
    Except LoadError ServiceConfig :=
  let loaded : Except LoadError ServiceConfig := match path with
    | some path =>
      match files path with
      | .error error => .error (.namedUnreadable path error)
      | .ok text =>
        match parse? text with
        | none => .error (.namedMalformed path)
        | some config => .ok config
    | none =>
      match discover files environment with
      | none => .ok fallback
      | some path =>
        match files path with
        | .error error => .error (.unreadable error)
        | .ok text =>
          match parse? text with
          | none => .error .malformed
          | some config => .ok config
  match loaded with
  | .error error => .error error
  | .ok config => .ok (config.overriddenBy environment)

end ServiceConfig

end TraceWatch
