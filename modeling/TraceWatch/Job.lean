import TraceWatch.Run.Basic

/-!
# Jobs of the workflow plane

A run is carried out by a job of the workflow plane. This module says what a job is called, what
is sent to submit one, and what comes back as its log.
-/

namespace TraceWatch

/-- The kind of resource that a job is. -/
def jobKind : String := "WorkflowRun"

/-- Where a job lives. -/
structure JobRef where
  space : String
  kind : String
  name : String
deriving DecidableEq, Repr

/-- The reference to a job in a namespace. -/
def JobRef.run (space name : String) : JobRef := ⟨space, jobKind, name⟩

/-- The longest name of a job. -/
def maxJobName : Nat := 63

/-- The name of the job of a run: the monitor's name, cut so that the whole fits, without hyphens
at its end, and the first eight digits of the run's identifier. -/
def jobName (monitor : String) (run : Uuid) : String :=
  let kept := monitor.toList.take (maxJobName - 8 - 1)
  let stem := (kept.reverse.dropWhile (· = '-')).reverse
  String.ofList stem ++ "-" ++ run.short

/-- What a job is to evaluate. -/
structure JobParameters where
  monitorId : String
  monitorName : String
  monitorDisplayName : String
  agentId : String
  environmentId : String
  /-- The evaluators, as the text of a document. -/
  evaluators : String
  samplingRate : Binary64
  traceStart : String
  traceEnd : String
  runId : String
deriving DecidableEq, Repr

/-- What is sent to submit a job. -/
structure JobSpec where
  name : String
  space : String
  template : String
  parameters : JobParameters
deriving DecidableEq, Repr

namespace JobSpec

/-- The submission of a run of a monitor. -/
def make (name space template : String) (m : Monitor) (run : Uuid) (window : Window)
    (evaluators : List Evaluator) : JobSpec where
  name
  space
  template
  parameters :=
    { monitorId := m.id.render
      monitorName := m.name
      monitorDisplayName := m.displayName
      agentId := m.agentId
      environmentId := m.environmentId
      evaluators := (Evaluator.listToJson evaluators).render
      samplingRate := m.samplingRate
      traceStart := window.start.renderSeconds
      traceEnd := window.stop.renderSeconds
      runId := run.render }

/-- The document of a job's parameters. -/
def parametersToJson (p : JobParameters) : Json :=
  .object [("monitorId", .string p.monitorId), ("monitorName", .string p.monitorName),
    ("monitorDisplayName", .string p.monitorDisplayName), ("agentId", .string p.agentId),
    ("environmentId", .string p.environmentId), ("evaluators", .string p.evaluators),
    ("samplingRate", .binary p.samplingRate), ("traceStart", .string p.traceStart),
    ("traceEnd", .string p.traceEnd), ("runId", .string p.runId)]

/-- The document of a submission. -/
def toJson (spec : JobSpec) : Json :=
  .object [("name", .string spec.name), ("namespace", .string spec.space),
    ("workflowTemplate", .string spec.template),
    ("parameters", parametersToJson spec.parameters)]

/-- Reads a job's parameters. -/
def parametersOfJson? (document : Json) : Option JobParameters := do
  let record ← Record.ofJson? ["monitorId", "monitorName", "monitorDisplayName", "agentId",
    "environmentId", "evaluators", "samplingRate", "traceStart", "traceEnd", "runId"] document
  let monitorId ← record.required "monitorId" Json.string?
  let monitorName ← record.required "monitorName" Json.string?
  let monitorDisplayName ← record.required "monitorDisplayName" Json.string?
  let agentId ← record.required "agentId" Json.string?
  let environmentId ← record.required "environmentId" Json.string?
  let evaluators ← record.required "evaluators" Json.string?
  let samplingRate ← record.required "samplingRate" Json.binary?
  let traceStart ← record.required "traceStart" Json.string?
  let traceEnd ← record.required "traceEnd" Json.string?
  let runId ← record.required "runId" Json.string?
  some { monitorId, monitorName, monitorDisplayName, agentId, environmentId, evaluators,
         samplingRate, traceStart, traceEnd, runId }

/-- Reads a submission. -/
def ofJson? (document : Json) : Option JobSpec := do
  let record ← Record.ofJson? ["name", "namespace", "workflowTemplate", "parameters"] document
  let name ← record.required "name" Json.string?
  let space ← record.required "namespace" Json.string?
  let template ← record.required "workflowTemplate" Json.string?
  let parameters ← record.required "parameters" parametersOfJson?
  some { name, space, template, parameters }

end JobSpec

/-- A line of a job's log. -/
structure LogLine where
  timestamp : Option Timestamp
  message : String
deriving DecidableEq, Repr

namespace LogLine

/-- Another name under which the message of a line may stand. -/
def messageName (name : String) : String := if name = "log" then "message" else name

/-- Reads a line. -/
def ofJson? (document : Json) : Option LogLine := do
  let renamed := match document with
    | .object fields => .object (fields.map fun (name, v) => (messageName name, v))
    | other => other
  let record ← Record.ofJson? ["timestamp", "message"] renamed
  let timestamp ← record.withDefault "timestamp" (Json.nullable Timestamp.ofJson?) none
  let message ← record.required "message" Json.string?
  some ⟨timestamp, message⟩

/-- Reads the lines of a log. -/
def listOfJson? : Json → Option (List LogLine) := Json.listOf ofJson?

/-- The document of a line. -/
def toJson (line : LogLine) : Json :=
  match line.timestamp with
  | none => .object [("message", .string line.message)]
  | some t => .object [("timestamp", t.toJson), ("message", .string line.message)]

end LogLine

end TraceWatch
