import TraceWatch.Command.Arguments
import TraceWatch.Command.Output
import TraceWatch.Config.DatabaseUrl
import TraceWatch.Config.EnvironmentFile
import TraceWatch.Config.Redaction
import TraceWatch.Config.Rules

/-!
# A run of the program

A run reads the command line, loads a configuration, sets up logging and then does what the command
says. `CommandLine.run` tells what it leaves behind, from the files and the environment alone. The
commands that need a database get as far as connecting to it: none can be reached from here.
-/

namespace TraceWatch

/-- The version of the program. -/
def programVersion : String := "0.3.0-pre-alpha"

/-- How the program is used. -/
def usageText : String := "Usage: agent-monitor [OPTIONS] [COMMAND]\n"

/-- What the program leaves behind if it does not run. -/
def Usage.output : Usage → Output
  | .help => ⟨0, usageText, ""⟩
  | .version name => ⟨0, name ++ " " ++ programVersion ++ "\n", ""⟩
  | .wrong => ⟨2, "", usageText⟩

namespace Command

/-- What stands for a value that is not set. -/
def notSet : String := "(not set)"

/-- A line. -/
def line (text : String) : String := text ++ "\n"

/-! ## Steps of a command -/

/-- The error of a configuration that could not be loaded. -/
def loadError (error : LoadError) : CommandError := .of error.message

/-- Checks a configuration. -/
def checkConfig (config : ServiceConfig) : Except CommandError Unit :=
  match config.fault? with
  | none => .ok ()
  | some fault => .error (.because "Configuration validation failed" (.of fault.message))

/-- Checks the format of the log. -/
def checkLogFormat (format : String) : Except CommandError Unit :=
  if ServiceConfig.isLogFormat format then .ok ()
  else .error (.of ("Unknown log format '" ++ format ++ "'. Expected 'compact' or 'json'"))

/-- Why there is no connection to a database: its URL makes no sense, or nothing answers there. -/
def connectionError (url : String) : CommandError :=
  .because "Failed to connect to database"
    (match (DatabaseUrl.fault? url).map DatabaseUrlFault.messages with
    | some (message :: causes) => ⟨message, causes⟩
    | _ => .of "pool timed out while waiting for an open connection")

/-- Why the services cannot be set up. -/
def serviceError (config : ServiceConfig) : CommandError :=
  .because "Failed to initialize database pool" (connectionError config.database.url)

/-- Checks the address that metrics are served at, if they are. -/
def checkMetricsAddress (config : ServiceConfig) : Except CommandError Unit :=
  match config.observability.metricsPort with
  | none => .ok ()
  | some port =>
    let address := config.server.bindAddress ++ ":" ++ Nat.repr port
    if Host.isSocketAddress address then .ok ()
    else
      .error (.because ("Invalid bind address " ++ address) (.of "invalid socket address syntax"))

/-! ## Commands -/

/-- Why the scheduler and the health page do not run: what happens as far as the database. -/
def startDaemon (config : ServiceConfig) : CommandError :=
  match checkConfig config with
  | .error error => error
  | .ok () =>
    match checkMetricsAddress config with
    | .error error => error
    | .ok () => serviceError config

/-- Why no cycle of the scheduler runs: what happens as far as the database. -/
def startCycle (config : ServiceConfig) : CommandError :=
  match checkConfig config with
  | .error error => error
  | .ok () => serviceError config

/-- What a migration prints before it connects to the database. -/
def migrationTitle (marks : Bool) : String :=
  line (marked marks [.bold, .green] "Agent Monitor Migrations") ++ line "Connecting to database..."

/-- The places where a configuration is looked for. -/
def discoveryPaths (marks : Bool) (environment : Environment) (path : Option String) : String :=
  let dimmed := marked marks [.dimmed]
  String.join [line (marked marks [.bold] "Configuration discovery paths:"),
    line ("  1. --config flag: " ++ path.getD (dimmed notSet)),
    line ("  2. MONITOR_CONFIG_PATH: "
      ++ dimmed ((environment.value? ServiceConfig.pathVariable).getD notSet)),
    line "  3. ./monitor-config.yaml", line "  4. /etc/agent-monitor/config.yaml", line ""]

/-- Shows the configuration. -/
def display (files : Files) (environment : Environment) (path : Option String) (paths : Bool) :
    Ending :=
  let marks := environment.wantsMarks
  match ServiceConfig.load files environment path with
  | .error error => ⟨"", some (.because "Failed to load configuration" (loadError error))⟩
  | .ok config =>
    ⟨(if paths then discoveryPaths marks environment path else "")
      ++ line (marked marks [.bold] "Current configuration:") ++ line "" ++ config.renderRedacted,
      none⟩

/-- Loads and checks a configuration. -/
def loadChecked (files : Files) (environment : Environment) (path : Option String) :
    Except CommandError Unit :=
  match ServiceConfig.load files environment path with
  | .error error => .error (.because "Failed to load configuration" (loadError error))
  | .ok config => checkConfig config

/-- Checks the configuration in a file, or else the one that the program would run with. -/
def verdict (files : Files) (environment : Environment) (path : Option String) : Ending :=
  let title := line "Validating configuration..."
  match loadChecked files environment path with
  | .error error => ⟨title, some error⟩
  | .ok () =>
    ⟨title ++ line (marked environment.wantsMarks [.green] "✓ Configuration is valid"), none⟩

/-- Does what a command says. `path` is the path of the configuration, if one is given. -/
def run (command : Command) (files : Files) (environment : Environment) (path : Option String)
    (config : ServiceConfig) : Ending :=
  match command with
  | serve _ => ⟨"", some (startDaemon config)⟩
  | runOnce => ⟨"", some (startCycle config)⟩
  | migrate _ =>
    ⟨migrationTitle environment.wantsMarks, some (connectionError config.database.url)⟩
  | showConfig paths => display files environment path paths
  | validateConfig file => verdict files environment (file.or path)

end Command

namespace Invocation

/-- What a run without a command leaves behind. -/
def withoutCommand (environment : Environment) : Output :=
  ⟨1, "", Command.line
    (marked environment.wantsMarks [.yellow] "No command specified. Use --help for usage.")⟩

/-- Runs the program. Logging is set up before an error of the configuration is told, and its own
error comes first. -/
def run (invocation : Invocation) (files : Files) (environment : Environment) : Output :=
  let failed (error : CommandError) : Output := Ending.output ⟨"", some error⟩
  match ServiceConfig.load files environment invocation.config with
  | .error error =>
    match Command.checkLogFormat
        (invocation.logFormat.getD ServiceConfig.fallback.observability.logFormat) with
    | .error error => failed error
    | .ok () => failed (Command.loadError error)
  | .ok config =>
    match Command.checkLogFormat (invocation.logFormat.getD config.observability.logFormat) with
    | .error error => failed error
    | .ok () =>
      match invocation.command with
      | none => withoutCommand environment
      | some command => (command.run files environment invocation.config config).output

/-- The files that a run may read. -/
def paths (invocation : Invocation) (environment : Environment) : List String :=
  let file := match invocation.command with
    | some (.validateConfig file) => file
    | _ => none
  invocation.config.toList ++ file.toList ++ ServiceConfig.places environment

end Invocation

namespace CommandLine

/-- The file of environment variables that a run reads first. -/
def environmentFile : String := ".env"

/-- The variables that a run may look at. -/
def variablesRead : List String :=
  [ServiceConfig.pathVariable, logLevelVariable, logFormatVariable, Environment.marksVariable]
    ++ ServiceConfig.overridingVariables

/-- The environment of a run, with what the file of environment variables adds. -/
def environmentOf (files : Files) (environment : Environment) : Environment :=
  match files environmentFile with
  | .ok text => EnvironmentFile.load environment text
  | .error _ => environment

/-- What a run of the program leaves behind. -/
def run (files : Files) (environment : Environment) (arguments : List String) : Output :=
  let environment := environmentOf files environment
  match Invocation.read environment arguments with
  | .error usage => usage.output
  | .ok invocation => invocation.run files environment

end CommandLine

end TraceWatch
