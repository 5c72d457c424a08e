import TraceWatch.Monitor.Basic
import TraceWatch.Time.Rfc3339

/-!
# Monitors as documents
-/

namespace TraceWatch

/-- The name of a variant in a document: a string, or the one key of an object without content. -/
def Json.variant? : Json → Option String
  | .string s => some s
  | .object [(name, .null)] => some name
  | _ => none

/-- Reads an instant. -/
def Timestamp.ofJson? (document : Json) : Option Timestamp :=
  document.string?.bind Timestamp.parse?

/-- The document of an instant. -/
def Timestamp.toJson (t : Timestamp) : Json := .string t.render

/-- The document of an instant or of none. -/
def Timestamp.optionToJson : Option Timestamp → Json
  | none => .null
  | some t => t.toJson

/-- Reads an identifier. -/
def Uuid.ofJson? (document : Json) : Option Uuid := document.string?.bind Uuid.parse?

/-- The document of an identifier. -/
def Uuid.toJson (id : Uuid) : Json := .string id.render

/-- A count of minutes: a whole number of 32 bits. -/
def Json.minutes? : Json → Option Int := Json.whole? (-0x80000000) 0x7FFFFFFF

namespace MonitorKind

/-- The word for a kind. -/
def word : MonitorKind → String
  | .future => "future"
  | .past => "past"

/-- Reads the word for a kind. -/
def ofWord? : String → Option MonitorKind
  | "future" => some .future
  | "past" => some .past
  | _ => none

/-- Reads a kind. -/
def ofJson? (document : Json) : Option MonitorKind := document.variant?.bind ofWord?

end MonitorKind

namespace RunStatus

/-- The word for a status. -/
def word : RunStatus → String
  | .pending => "pending"
  | .running => "running"
  | .succeeded => "succeeded"
  | .failed => "failed"

/-- Reads the word for a status. -/
def ofWord? : String → Option RunStatus
  | "pending" => some .pending
  | "running" => some .running
  | "succeeded" => some .succeeded
  | "failed" => some .failed
  | _ => none

/-- Reads a status. -/
def ofJson? (document : Json) : Option RunStatus := document.variant?.bind ofWord?

end RunStatus

/-- The word for a monitor's status. -/
def MonitorStatus.word : MonitorStatus → String
  | .active => "active"
  | .suspended => "suspended"
  | .failed => "failed"
  | .unknown => "unknown"

namespace Monitor

/-- The fields of a monitor's document. -/
def fieldNames : List String :=
  ["id", "name", "display_name", "monitor_type", "org_name", "project_name", "agent_name",
    "agent_id", "environment_name", "environment_id", "evaluators", "sampling_rate",
    "interval_minutes", "next_run_time", "trace_start", "trace_end", "created_at", "updated_at"]

/-- Reads a monitor. -/
def ofJson? (document : Json) : Option Monitor := do
  let record ← Record.ofJson? fieldNames document
  let id ← record.required "id" Uuid.ofJson?
  let name ← record.required "name" Json.string?
  let displayName ← record.required "display_name" Json.string?
  let kind ← record.required "monitor_type" MonitorKind.ofJson?
  let org ← record.required "org_name" Json.string?
  let project ← record.required "project_name" Json.string?
  let agent ← record.required "agent_name" Json.string?
  let agentId ← record.required "agent_id" Json.string?
  let environment ← record.required "environment_name" Json.string?
  let environmentId ← record.required "environment_id" Json.string?
  let evaluators ← record.required "evaluators" Evaluator.listOfJson?
  let samplingRate ← record.required "sampling_rate" Json.binary?
  let interval ← record.optional "interval_minutes" Json.minutes?
  let nextRun ← record.optional "next_run_time" Timestamp.ofJson?
  let traceStart ← record.optional "trace_start" Timestamp.ofJson?
  let traceEnd ← record.optional "trace_end" Timestamp.ofJson?
  let createdAt ← record.required "created_at" Timestamp.ofJson?
  let updatedAt ← record.required "updated_at" Timestamp.ofJson?
  some { id, name, displayName, kind, org, project, agent, agentId, environment, environmentId,
         evaluators, samplingRate, interval, nextRun, traceStart, traceEnd, createdAt, updatedAt }

/-- The fields of a monitor's document, with their values. -/
def toFields (m : Monitor) : List (String × Json) :=
  [("id", m.id.toJson), ("name", .string m.name), ("display_name", .string m.displayName),
    ("monitor_type", .string m.kind.word), ("org_name", .string m.org),
    ("project_name", .string m.project), ("agent_name", .string m.agent),
    ("agent_id", .string m.agentId), ("environment_name", .string m.environment),
    ("environment_id", .string m.environmentId),
    ("evaluators", Evaluator.listToJson m.evaluators), ("sampling_rate", .binary m.samplingRate),
    ("interval_minutes", (m.interval.map Json.whole).getD .null),
    ("next_run_time", Timestamp.optionToJson m.nextRun),
    ("trace_start", Timestamp.optionToJson m.traceStart),
    ("trace_end", Timestamp.optionToJson m.traceEnd),
    ("created_at", m.createdAt.toJson), ("updated_at", m.updatedAt.toJson)]

/-- The document of a monitor. -/
def toJson (m : Monitor) : Json := .object m.toFields

end Monitor

end TraceWatch
