import TraceWatch.Monitor.Document
import TraceWatch.Window

/-!
# Runs

A run is one attempt to evaluate a monitor. It keeps the window and the evaluators it was started
with, so that later edits of the monitor change neither its record nor a rerun of it.
-/

namespace TraceWatch

/-- One attempt to evaluate a monitor. -/
structure Run where
  id : Uuid
  monitorId : Uuid
  jobName : String
  window : Window
  evaluators : List Evaluator
  status : RunStatus
  errorMessage : Option String
  createdAt : Timestamp
  updatedAt : Timestamp
deriving Repr, BEq

/-- A run that has not come to its end, with the organization its job belongs to. -/
structure InFlightRun where
  run : Run
  org : String
deriving Repr, BEq

namespace Run

/-- A run just submitted. -/
def pending (id monitorId : Uuid) (jobName : String) (window : Window)
    (evaluators : List Evaluator) (now : Timestamp) : Run :=
  { id, monitorId, jobName, window, evaluators, status := .pending, errorMessage := none,
    createdAt := now, updatedAt := now }

/-- The run after it has been seen in a status. A message is kept only with a failed run. -/
def observe (r : Run) (status : RunStatus) (message : String) (now : Timestamp) : Run :=
  if r.status = status then r
  else { r with
    status
    errorMessage := if status = .failed ∧ message ≠ "" then some message else none
    updatedAt := now }

/-- The fields of a run's document. -/
def fieldNames : List String :=
  ["id", "monitor_id", "job_name", "trace_start", "trace_end", "evaluators", "status",
    "error_message", "created_at", "updated_at"]

/-- Reads a run. -/
def ofJson? (document : Json) : Option Run := do
  let record ← Record.ofJson? fieldNames document
  let id ← record.required "id" Uuid.ofJson?
  let monitorId ← record.required "monitor_id" Uuid.ofJson?
  let jobName ← record.required "job_name" Json.string?
  let start ← record.required "trace_start" Timestamp.ofJson?
  let stop ← record.required "trace_end" Timestamp.ofJson?
  let evaluators ← record.required "evaluators" Evaluator.listOfJson?
  let status ← record.required "status" RunStatus.ofJson?
  let errorMessage ← record.optional "error_message" Json.string?
  let createdAt ← record.required "created_at" Timestamp.ofJson?
  let updatedAt ← record.required "updated_at" Timestamp.ofJson?
  some { id, monitorId, jobName, window := ⟨start, stop⟩, evaluators, status, errorMessage,
         createdAt, updatedAt }

/-- The fields of a run's document other than its message. -/
def toFields (r : Run) : List (String × Json) :=
  [("id", r.id.toJson), ("monitor_id", r.monitorId.toJson), ("job_name", .string r.jobName),
    ("trace_start", r.window.start.toJson), ("trace_end", r.window.stop.toJson),
    ("evaluators", Evaluator.listToJson r.evaluators), ("status", .string r.status.word),
    ("created_at", r.createdAt.toJson), ("updated_at", r.updatedAt.toJson)]

/-- The document of a run as it is stored. -/
def toJson (r : Run) : Json :=
  .object (("error_message", Json.ofString? r.errorMessage) :: r.toFields)

/-- The document of a run as it is shown: without a message if it has none. -/
def toViewJson (r : Run) : Json :=
  match r.errorMessage with
  | none => .object r.toFields
  | some message => .object (("error_message", .string message) :: r.toFields)

end Run

end TraceWatch
