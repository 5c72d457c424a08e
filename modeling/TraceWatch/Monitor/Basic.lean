import TraceWatch.Evaluator
import TraceWatch.Failure
import TraceWatch.Time.Timestamp

/-!
# Monitors

A monitor is an evaluation bound to one agent in one environment. A future monitor is evaluated
again and again, one interval apart; it is suspended while it has no instant at which it is due. A
past monitor is evaluated once, over a window that has already elapsed.
-/

namespace TraceWatch

/-- Whether a monitor looks at traces to come or at a window of the past. -/
inductive MonitorKind where
  | future
  | past
deriving DecidableEq, Repr

/-- How far a run has come. -/
inductive RunStatus where
  | pending
  | running
  | succeeded
  | failed
deriving DecidableEq, Repr

/-- Whether a run has come to its end. -/
def RunStatus.isTerminal : RunStatus → Bool
  | .succeeded | .failed => true
  | .pending | .running => false

/-- The state of a monitor as its readers see it. -/
inductive MonitorStatus where
  | active
  | suspended
  | failed
  | unknown
deriving DecidableEq, Repr

/-- A monitor. -/
structure Monitor where
  id : Uuid
  name : String
  displayName : String
  kind : MonitorKind
  org : String
  project : String
  agent : String
  agentId : String
  environment : String
  environmentId : String
  evaluators : List Evaluator
  samplingRate : Binary64
  interval : Option Int
  nextRun : Option Timestamp
  traceStart : Option Timestamp
  traceEnd : Option Timestamp
  createdAt : Timestamp
  updatedAt : Timestamp
deriving Repr, BEq

namespace Monitor

/-- Whether the monitor is a future one. -/
def isFuture (m : Monitor) : Bool := m.kind = .future

/-- A future monitor without a due instant. -/
def isSuspended (m : Monitor) : Bool := m.isFuture && m.nextRun.isNone

/-- Whether the monitor's instant has come. -/
def isDue (m : Monitor) (now : Timestamp) : Bool :=
  m.isFuture && m.nextRun.any fun t => t ≤ now

/-- The status of a monitor whose latest run, if it has one, has the given status. A future monitor
shows its schedule and a past one the outcome of its run. -/
def status (m : Monitor) (latest : Option RunStatus) : MonitorStatus :=
  match m.kind, latest with
  | .future, _ => if m.nextRun.isSome then .active else .suspended
  | .past, some .failed => .failed
  | .past, some _ => .active
  | .past, none => .unknown

/-- Takes the monitor off its schedule. -/
def suspend (m : Monitor) (now : Timestamp) : Except StateFault Monitor :=
  if !m.isFuture then .error (.cannotStop m.name)
  else if m.nextRun.isNone then .error (.alreadyStopped m.name)
  else .ok { m with nextRun := none, updatedAt := now }

/-- Puts a suspended monitor back on its schedule, due at once. -/
def resume (m : Monitor) (now : Timestamp) : Except StateFault Monitor :=
  if !m.isFuture then .error (.cannotStart m.name)
  else if m.nextRun.isSome then .error (.alreadyActive m.name)
  else .ok { m with nextRun := some now, updatedAt := now }

end Monitor

/-- What a listing of monitors is narrowed to. -/
structure MonitorFilter where
  project : Option String
  agent : Option String
deriving DecidableEq, Repr

/-- Whether a monitor passes a filter. -/
def MonitorFilter.admits (filter : MonitorFilter) (m : Monitor) : Bool :=
  filter.project.all (· = m.project) && filter.agent.all (· = m.agent)

end TraceWatch
