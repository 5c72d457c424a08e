import TraceWatch.Monitor.Document
import TraceWatch.Monitor.Rules

/-!
# Requests

What users ask for when they create or edit a monitor, and the rules that such a request has to
keep by itself.
-/

namespace TraceWatch

/-- The request for a new monitor. -/
structure NewMonitor where
  name : String
  displayName : String
  kind : MonitorKind
  project : String
  agent : String
  environment : String
  evaluators : List Evaluator
  samplingRate : Option Binary64
  interval : Option Int
  traceStart : Option Timestamp
  traceEnd : Option Timestamp
deriving Repr

namespace NewMonitor

/-- Reads a request. -/
def ofJson? (document : Json) : Option NewMonitor := do
  let record ← Record.ofJson? ["name", "display_name", "monitor_type", "project_name",
    "agent_name", "environment_name", "evaluators", "sampling_rate", "interval_minutes",
    "trace_start", "trace_end"] document
  let name ← record.required "name" Json.string?
  let displayName ← record.required "display_name" Json.string?
  let kind ← record.required "monitor_type" MonitorKind.ofJson?
  let project ← record.required "project_name" Json.string?
  let agent ← record.required "agent_name" Json.string?
  let environment ← record.required "environment_name" Json.string?
  let evaluators ← record.required "evaluators" Evaluator.listOfJson?
  let samplingRate ← record.withDefault "sampling_rate" (Json.nullable Json.binary?) none
  let interval ← record.withDefault "interval_minutes" (Json.nullable Json.minutes?) none
  let traceStart ← record.withDefault "trace_start" (Json.nullable Timestamp.ofJson?) none
  let traceEnd ← record.withDefault "trace_end" (Json.nullable Timestamp.ofJson?) none
  some { name, displayName, kind, project, agent, environment, evaluators, samplingRate,
         interval, traceStart, traceEnd }

/-- The request with its window cut to whole seconds, as the workflow plane takes it. -/
def truncate (r : NewMonitor) : NewMonitor :=
  { r with
    traceStart := r.traceStart.map Timestamp.truncate
    traceEnd := r.traceEnd.map Timestamp.truncate }

/-- The rules for the fields that belong to one kind of monitor. -/
def checkKind (r : NewMonitor) (now : Timestamp) : Except Violation Unit :=
  match r.kind with
  | .future =>
    if r.traceStart.isSome || r.traceEnd.isSome then .error .windowOfFuture
    else match r.interval with
      | some minutes => Rules.checkInterval minutes
      | none => .ok ()
  | .past =>
    if r.interval.isSome then .error .intervalOfPast
    else match r.traceStart, r.traceEnd with
      | some start, some stop => Rules.checkWindow ⟨start, stop⟩ now
      | _, _ => .error .windowMissing

/-- The rules for a request, in the order in which they are applied. -/
def check (r : NewMonitor) (now : Timestamp) : Except Violation Unit := do
  Rules.checkName r.name
  Rules.checkDisplayName r.displayName
  Rules.checkEvaluators r.evaluators
  match r.samplingRate with
  | some rate => Rules.checkSamplingRate rate
  | none => .ok ()
  r.checkKind now

/-- The interval of a future monitor that was asked for without one, in minutes. -/
def defaultInterval : Int := 60

/-- The sampling rate of a monitor that was asked for without one. -/
def defaultSamplingRate : Binary64 := .ofNat 1

/-- The monitor that a request describes. A future one is due at once. -/
def toMonitor (r : NewMonitor) (id : Uuid) (org agentId environmentId : String)
    (now : Timestamp) : Monitor where
  id
  name := r.name
  displayName := r.displayName
  kind := r.kind
  org
  project := r.project
  agent := r.agent
  agentId
  environment := r.environment
  environmentId
  evaluators := r.evaluators
  samplingRate := r.samplingRate.getD defaultSamplingRate
  interval := if r.kind = .future then some (r.interval.getD defaultInterval) else none
  nextRun := if r.kind = .future then some now else none
  traceStart := r.traceStart
  traceEnd := r.traceEnd
  createdAt := now
  updatedAt := now

end NewMonitor

/-- The request to edit a monitor; what it leaves out stays as it is. -/
structure Edit where
  displayName : Option String
  evaluators : Option (List Evaluator)
  samplingRate : Option Binary64
  interval : Option Int
deriving Repr

namespace Edit

/-- Reads a request. -/
def ofJson? (document : Json) : Option Edit := do
  let record ← Record.ofJson? ["display_name", "evaluators", "sampling_rate",
    "interval_minutes"] document
  let displayName ← record.withDefault "display_name" (Json.nullable Json.string?) none
  let evaluators ← record.withDefault "evaluators" (Json.nullable Evaluator.listOfJson?) none
  let samplingRate ← record.withDefault "sampling_rate" (Json.nullable Json.binary?) none
  let interval ← record.withDefault "interval_minutes" (Json.nullable Json.minutes?) none
  some { displayName, evaluators, samplingRate, interval }

/-- Applies a rule to a field if the request holds it. -/
def checkField {α : Type} (check : α → Except Violation Unit) :
    Option α → Except Violation Unit
  | some v => check v
  | none => .ok ()

/-- The rule for an interval, which only a future monitor has. -/
def checkInterval (m : Monitor) (minutes : Int) : Except Violation Unit :=
  if m.isFuture then Rules.checkInterval minutes else .error .intervalOfPast

/-- The rules for a request, in the order in which they are applied. -/
def check (edit : Edit) (m : Monitor) : Except Violation Unit := do
  checkField Rules.checkDisplayName edit.displayName
  checkField Rules.checkEvaluators edit.evaluators
  checkField Rules.checkSamplingRate edit.samplingRate
  checkField (checkInterval m) edit.interval

/-- The monitor with the fields of the request put in. -/
def apply (edit : Edit) (m : Monitor) : Monitor :=
  { m with
    displayName := edit.displayName.getD m.displayName
    evaluators := edit.evaluators.getD m.evaluators
    samplingRate := edit.samplingRate.getD m.samplingRate
    interval := edit.interval <|> m.interval }

end Edit

end TraceWatch
