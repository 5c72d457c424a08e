import TraceWatch.Number.Layout
import TraceWatch.Uuid

/-!
# What can go wrong

The failures of the service, by cause, and the message of each. A failure of a store or of the
workflow plane carries the text it came with; all others carry the data that the message names.
-/

namespace TraceWatch

/-! ## Failures of the outside world -/

/-- A failed call of the store. -/
inductive StoreError where
  | notFound (what : String)
  | conflict (what : String)
  | database (what : String)
  | serialization (what : String)
deriving DecidableEq, Repr

/-- The message of a failed call of the store. -/
def StoreError.message : StoreError → String
  | .notFound what => "Entity not found: " ++ what
  | .conflict what => "Conflict: " ++ what
  | .database what => "Database error: " ++ what
  | .serialization what => "Serialization error: " ++ what

/-- A failure inside a database. -/
inductive DatabaseFault where
  | rowNotFound
  | poolTimedOut
  | poolClosed
  | columnNotFound (name : String)
  | protocol (detail : String)
  /-- Reported by the database server, with its state code if it gave one. -/
  | reported (detail : String) (code : Option String)
deriving DecidableEq, Repr

namespace DatabaseFault

/-- The state code of a violated uniqueness rule. -/
def uniqueViolation : String := "23505"

/-- The text of a failure inside a database. -/
def text : DatabaseFault → String
  | .rowNotFound => "no rows returned by a query that expected to return at least one row"
  | .poolTimedOut => "pool timed out while waiting for an open connection"
  | .poolClosed => "attempted to acquire a connection on a closed pool"
  | .columnNotFound name => "no column found for name: " ++ name
  | .protocol detail => "encountered unexpected or invalid data: " ++ detail
  | .reported detail _ => "error returned from database: " ++ detail

/-- What a failure inside a database means for a call of the store: a missing row is nothing
found, a violated uniqueness rule is a conflict. -/
def toStoreError : DatabaseFault → StoreError
  | .rowNotFound => .notFound "Row not found"
  | .reported detail code =>
    if code = some uniqueViolation then .conflict detail
    else .database (text (.reported detail code))
  | fault => .database fault.text

end DatabaseFault

/-- A failed call of the workflow plane. -/
inductive PlaneError where
  | notFound (what : String)
  | rejected (status : Nat) (body : String)
  | transport (detail : String)
  | invalidResponse (detail : String)
deriving DecidableEq, Repr

/-- The message of a failed call of the workflow plane. -/
def PlaneError.message : PlaneError → String
  | .notFound what => "Resource not found: " ++ what
  | .rejected status body => "Request rejected with status " ++ Nat.repr status ++ ": " ++ body
  | .transport detail => "Transport error: " ++ detail
  | .invalidResponse detail => "Invalid response: " ++ detail

/-! ## Refusals of the service itself -/

/-- Why no window can be planned for a monitor. -/
inductive WindowError where
  | missingInterval
  | missingNextRun
  | invalidInterval (minutes : Int)
deriving DecidableEq, Repr

/-- The message of a window that cannot be planned. -/
def WindowError.message : WindowError → String
  | .missingInterval => "interval_minutes is nil"
  | .missingNextRun => "next_run_time is nil"
  | .invalidInterval minutes => "interval_minutes must be positive, got " ++ toString minutes

/-- A rule about the fields of a monitor that a request breaks. -/
inductive Violation where
  | invalidName (name : String)
  | blankDisplayName
  | samplingRateOutOfRange (rate : Binary64)
  | intervalTooShort (minutes : Int)
  | noEvaluators
  | blankIdentifier
  | duplicateEvaluator (identifier : String)
  | emptyWindow
  | windowNotElapsed
  | windowOfFuture
  | intervalOfPast
  | windowMissing
  | nothingToRun (name : String)
deriving DecidableEq, Repr

/-- The shortest interval of a monitor, in minutes. -/
def minInterval : Int := 5

/-- The message of a broken rule. -/
def Violation.message : Violation → String
  | .invalidName name => "invalid monitor name '" ++ name
      ++ "': must be 3-50 lowercase alphanumeric characters or '-', "
      ++ "starting with a letter and ending with a letter or digit"
  | .blankDisplayName => "display name must not be empty"
  | .samplingRateOutOfRange rate =>
    "sampling rate must be in (0, 1], got " ++ Layout.message.render rate
  | .intervalTooShort minutes =>
    "interval must be at least " ++ toString minInterval ++ " minutes, got " ++ toString minutes
  | .noEvaluators => "at least one evaluator is required"
  | .blankIdentifier => "evaluator identifier must not be empty"
  | .duplicateEvaluator identifier => "duplicate evaluator '" ++ identifier ++ "'"
  | .emptyWindow => "trace start time must be before trace end time"
  | .windowNotElapsed => "trace end time must not be in the future"
  | .windowOfFuture => "trace start/end times only apply to past monitors"
  | .intervalOfPast => "interval only applies to future monitors"
  | .windowMissing => "past monitors require trace start and end times"
  | .nothingToRun name => "monitor '" ++ name ++ "' has no evaluators to run"

/-- Why a monitor cannot be stopped or started. -/
inductive StateFault where
  | cannotStop (name : String)
  | cannotStart (name : String)
  | alreadyStopped (name : String)
  | alreadyActive (name : String)
deriving DecidableEq, Repr

/-- The message of a refused stop or start. -/
def StateFault.message : StateFault → String
  | .cannotStop name =>
    "cannot stop monitor '" ++ name ++ "': only future monitors support stop and start"
  | .cannotStart name =>
    "cannot start monitor '" ++ name ++ "': only future monitors support stop and start"
  | .alreadyStopped name => "monitor '" ++ name ++ "' is already stopped"
  | .alreadyActive name => "monitor '" ++ name ++ "' is already active"

/-- Why an operation on monitors failed. -/
inductive MonitorError where
  | validation (violation : Violation)
  | monitorNotFound (org name : String)
  | runNotFound (run : Uuid) (monitor : String)
  | alreadyExists (org name : String)
  | invalidState (fault : StateFault)
  | window (error : WindowError)
  | plane (error : PlaneError)
  | store (error : StoreError)
deriving DecidableEq, Repr

/-- The message of a failed operation. -/
def MonitorError.message : MonitorError → String
  | .validation violation => "Validation failed: " ++ violation.message
  | .monitorNotFound org name => "Monitor not found: " ++ org ++ "/" ++ name
  | .runNotFound run monitor =>
    "Monitor run not found: run " ++ run.render ++ " of monitor '" ++ monitor ++ "'"
  | .alreadyExists org name => "Monitor already exists: " ++ org ++ "/" ++ name
  | .invalidState fault => "Invalid monitor state: " ++ fault.message
  | .window error => "Failed to calculate time window: " ++ error.message
  | .plane error => "Workload executor error: " ++ error.message
  | .store error => "Repository error: " ++ error.message

end TraceWatch
