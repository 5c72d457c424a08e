import TraceWatch.Config.Basic
import TraceWatch.Url.Parser

/-!
# The rules of a configuration

`ServiceConfig.fault?` checks the rules in a fixed order and names the first that is broken.
-/

namespace TraceWatch

/-- A rule that a configuration breaks. -/
inductive ConfigFault where
  | unknownVersion (version : String)
  | unknownKind (kind : String)
  | noName
  | noDatabase
  | noConnections
  | tooFewConnections
  | noPollInterval
  | invalidPlaneUrl (url : String) (error : UrlError)
  | noTemplate
  | unknownLogFormat (format : String)
deriving DecidableEq, Repr

/-- The scheduler keeps one connection for its lock, and needs one more to work with. -/
def minSchedulerConnections : Nat := 2

/-- The message of a broken rule. -/
def ConfigFault.message : ConfigFault → String
  | .unknownVersion version => "Invalid apiVersion: '" ++ version ++ "'. Must be '"
      ++ ServiceConfig.currentVersion ++ "'"
  | .unknownKind kind =>
    "Invalid kind: '" ++ kind ++ "'. Must be '" ++ ServiceConfig.currentKind ++ "'"
  | .noName => "metadata.name cannot be empty"
  | .noDatabase => "spec.database.url cannot be empty"
  | .noConnections => "spec.database.max_connections must be at least 1"
  | .tooFewConnections => "spec.database.max_connections must be at least "
      ++ Nat.repr minSchedulerConnections ++ " while the scheduler is enabled"
  | .noPollInterval => "spec.scheduler.poll_interval_seconds must be at least 1"
  | .invalidPlaneUrl url error =>
    "Invalid spec.workflow_plane.base_url '" ++ url ++ "': " ++ error.message
  | .noTemplate => "spec.workflow_plane.workflow_template cannot be empty"
  | .unknownLogFormat format =>
    "Invalid log_format '" ++ format ++ "'. Expected 'compact' or 'json'"

namespace ServiceConfig

/-- Whether a log format is known. -/
def isLogFormat (format : String) : Bool := format = "compact" || format = "json"

/-- The first rule that a configuration breaks. -/
def fault? (config : ServiceConfig) : Option ConfigFault :=
  if config.apiVersion ≠ currentVersion then some (.unknownVersion config.apiVersion)
  else if config.kind ≠ currentKind then some (.unknownKind config.kind)
  else if config.name = "" then some .noName
  else if config.database.url = "" then some .noDatabase
  else if config.database.maxConnections = 0 then some .noConnections
  else if config.scheduler.enabled ∧ config.database.maxConnections < minSchedulerConnections then
    some .tooFewConnections
  else if config.scheduler.pollIntervalSeconds = 0 then some .noPollInterval
  else
    match Url.parse config.plane.baseUrl with
    | .error error => some (.invalidPlaneUrl config.plane.baseUrl error)
    | .ok _ =>
      if config.plane.workflowTemplate = "" then some .noTemplate
      else if isLogFormat config.observability.logFormat then none
      else some (.unknownLogFormat config.observability.logFormat)

/-- Checks the rules. -/
def validate (config : ServiceConfig) : Except ConfigFault Unit :=
  match config.fault? with
  | none => .ok ()
  | some fault => .error fault

end ServiceConfig

end TraceWatch
