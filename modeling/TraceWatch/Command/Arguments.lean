import TraceWatch.Config.Files
import TraceWatch.Text.Parts

/-!
# The command line

The program has commands, and options that may stand before, between and after the words of a
command. `Invocation.read` reads a command line. An option given closer to the end of the command
counts more, and the environment stands in for one that is not given at all.
-/

namespace TraceWatch

/-- What the program can do. -/
inductive Command where
  /-- Run the scheduler and the health page, perhaps after a migration of the database. -/
  | serve (migrate : Bool)
  /-- Run one cycle of the scheduler. -/
  | runOnce
  /-- Bring the database up to date, or only tell what would be done. -/
  | migrate (dryRun : Bool)
  /-- Show the configuration, perhaps with the places where it is looked for. -/
  | showConfig (paths : Bool)
  /-- Check a configuration. -/
  | validateConfig (file : Option String)
deriving DecidableEq, Repr

/-- A command line that has been read. -/
structure Invocation where
  config : Option String
  logLevel : Option String
  logFormat : Option String
  command : Option Command
deriving DecidableEq, Repr

/-- Why a command line asks for no run of the program. -/
inductive Usage where
  | help
  /-- The version is asked for, of the program or the command of that name. -/
  | version (name : String)
  | wrong
deriving DecidableEq, Repr

namespace CommandLine

/-- A place in a command line: after the program's name, or after the words of a command. -/
inductive Level where
  | program
  | serve
  | runOnce
  | migrate
  | config
  | showConfig
  | validateConfig
deriving DecidableEq, Repr

namespace Level

/-- The name of a level: that of the program, and the words that lead there. -/
def name : Level → String
  | program => "agent-monitor"
  | serve => "agent-monitor-serve"
  | runOnce => "agent-monitor-run-once"
  | migrate => "agent-monitor-migrate"
  | config => "agent-monitor-config"
  | showConfig => "agent-monitor-config-show"
  | validateConfig => "agent-monitor-config-validate"

/-- The level that a word leads to. -/
def next? : Level → String → Option Level
  | program, word =>
    if word = "serve" then some serve
    else if word = "run-once" then some runOnce
    else if word = "migrate" then some migrate
    else if word = "config" then some config
    else none
  | config, word =>
    if word = "show" then some showConfig
    else if word = "validate" then some validateConfig
    else none
  | _, _ => none

/-- Whether words lead on from a level. -/
def isOpen : Level → Bool
  | program => true
  | config => true
  | _ => false

/-- The switch that a level has. -/
def switch? : Level → Option String
  | serve => some "migrate"
  | migrate => some "dry-run"
  | showConfig => some "paths"
  | _ => none

end Level

/-- What has been given at a level. -/
structure Given where
  config : Option String
  logLevel : Option String
  logFormat : Option String
  switch : Bool
  file : Option String
deriving DecidableEq, Repr

namespace Given

/-- Nothing has been given. -/
def nothing : Given := ⟨none, none, none, false, none⟩

end Given

/-- The options that take a value. -/
inductive Setting where
  | config
  | logLevel
  | logFormat
deriving DecidableEq, Repr

namespace Setting

/-- The option of a name. -/
def ofName? (name : List Char) : Option Setting :=
  if name = "config".toList then some config
  else if name = "log-level".toList then some logLevel
  else if name = "log-format".toList then some logFormat
  else none

/-- Gives an option. It can be given once at a level, and the path of a configuration is not
empty. -/
def give? (setting : Setting) (value : String) (given : Given) : Option Given :=
  match setting with
  | config =>
    if value.isEmpty ∨ given.config.isSome then none else some { given with config := value }
  | logLevel => if given.logLevel.isSome then none else some { given with logLevel := value }
  | logFormat => if given.logFormat.isSome then none else some { given with logFormat := value }

end Setting

/-- What one word of a command line says. -/
inductive Word where
  /-- Nothing after it is an option. -/
  | onlyFiles
  | help
  | version
  | switch
  /-- An option with its value. -/
  | setting (option : Setting) (value : String)
  /-- An option with its value in the next word. -/
  | awaiting (option : Setting)
  /-- A word of a command, or a file. -/
  | plain
  | wrong
deriving DecidableEq, Repr

/-- The word with the name of an option, and the value after its equals sign. -/
def Word.ofName (level : Level) (name : List Char) (value : Option (List Char)) : Word :=
  match Setting.ofName? name, value with
  | some option, some value => .setting option (String.ofList value)
  | some option, none => .awaiting option
  | none, some _ => .wrong
  | none, none =>
    if name = "help".toList then .help
    else if name = "version".toList then .version
    else if level.switch? = some (String.ofList name) then .switch
    else .wrong

/-- The word of options of one letter. The value of a configuration's path may follow its letter
directly or after an equals sign. -/
def Word.ofLetters : List Char → Word
  | 'h' :: _ => .help
  | 'V' :: _ => .version
  | ['c'] => .awaiting .config
  | 'c' :: '=' :: value => .setting .config (String.ofList value)
  | 'c' :: value => .setting .config (String.ofList value)
  | _ => .wrong

/-- Reads a word at a level. -/
def Word.of (level : Level) (text : String) : Word :=
  match text.toList with
  | ['-', '-'] => .onlyFiles
  | '-' :: '-' :: name =>
    match Text.atFirst? '=' name with
    | some (name, value) => .ofName level name (some value)
    | none => .ofName level name none
  | '-' :: c :: letters => .ofLetters (c :: letters)
  | _ => .plain

/-- Whether a text cannot be the value of the option before it. -/
def looksLikeOption (text : String) : Bool :=
  match text.toList with
  | '-' :: _ :: _ => true
  | _ => false

/-- Gives a file, which only `config validate` takes. -/
def giveFile? (level : Level) (file : String) (given : Given) : Option Given :=
  if level = .validateConfig ∧ given.file = none ∧ !file.isEmpty then
    some { given with file := file }
  else none

/-- Whether words lead from a level to another. -/
def leadsOn (level : Level) : List String → Bool
  | [] => true
  | word :: rest =>
    match level.next? word with
    | some level => leadsOn level rest
    | none => word = "help" && level.isOpen && rest.isEmpty

/-- Reads the words at a level, up to one that leads to the next level. -/
def readLevel (level : Level) (given : Given) :
    List String → Except Usage (Given × Option (Level × List String))
  | [] => .ok (given, none)
  | text :: rest =>
    match Word.of level text with
    | .help => .error .help
    | .version => .error (.version level.name)
    | .wrong => .error .wrong
    | .switch =>
      if given.switch then .error .wrong else readLevel level { given with switch := true } rest
    | .setting option value =>
      match option.give? value given with
      | some given => readLevel level given rest
      | none => .error .wrong
    | .awaiting option =>
      match rest with
      | [] => .error .wrong
      | value :: rest =>
        if looksLikeOption value then .error .wrong
        else
          match option.give? value given with
          | some given => readLevel level given rest
          | none => .error .wrong
    | .onlyFiles =>
      match rest.foldlM (fun given file => giveFile? level file given) given with
      | some given => .ok (given, none)
      | none => .error .wrong
    | .plain =>
      match level.next? text with
      | some next => .ok (given, some (next, rest))
      | none =>
        if text = "help" ∧ level.isOpen then
          .error (if leadsOn level rest then .help else .wrong)
        else
          match giveFile? level text given with
          | some given => readLevel level given rest
          | none => .error .wrong

/-- The command of a level, by what is given there. -/
def command? (level : Level) (given : Given) : Option Command :=
  match level with
  | .serve => some (.serve given.switch)
  | .runOnce => some .runOnce
  | .migrate => some (.migrate given.switch)
  | .showConfig => some (.showConfig given.switch)
  | .validateConfig => some (.validateConfig given.file)
  | .program => none
  | .config => none

/-- Reads a command line from a level on, and tells what is given at each level that it passes. The
first argument is the number of levels there can be, and `config` cannot be the last of them. -/
def readFrom : Nat → Level → List String → Except Usage (List Given × Option Command)
  | 0, _, _ => .error .wrong
  | depth + 1, level, words =>
    match readLevel level .nothing words with
    | .error usage => .error usage
    | .ok (given, some (next, rest)) =>
      match readFrom depth next rest with
      | .error usage => .error usage
      | .ok (others, command) => .ok (given :: others, command)
    | .ok (given, none) =>
      if level = .config then .error .wrong else .ok ([given], command? level given)

/-- The variable that stands in for the level of the log. -/
def logLevelVariable : String := "MONITOR_LOG_LEVEL"

/-- The variable that stands in for the format of the log. -/
def logFormatVariable : String := "MONITOR_LOG_FORMAT"

/-- The value of an option: that of the last level where it is given, or else what the environment
says. -/
def effective (environment : Environment) (name : String) (values : List (Option String)) :
    Option String :=
  (values.reverse.findSome? id).or (environment.value? name)

end CommandLine

namespace Invocation

/-- Reads a command line. -/
def read (environment : Environment) (arguments : List String) : Except Usage Invocation :=
  match CommandLine.readFrom 3 .program arguments with
  | .error usage => .error usage
  | .ok (given, command) =>
    let isUnset (level : CommandLine.Given) : Bool := level.config.isNone
    if environment.value? ServiceConfig.pathVariable = some "" ∧ given.any isUnset then
      .error .wrong
    else .ok {
      config := CommandLine.effective environment ServiceConfig.pathVariable
        (given.map (·.config))
      logLevel := CommandLine.effective environment CommandLine.logLevelVariable
        (given.map (·.logLevel))
      logFormat := CommandLine.effective environment CommandLine.logFormatVariable
        (given.map (·.logFormat))
      command := command }

end Invocation

end TraceWatch
