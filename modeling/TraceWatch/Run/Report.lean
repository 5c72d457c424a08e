import TraceWatch.Monitor.Basic

/-!
# Reports on runs

The workflow plane reports on a job by a document with a list of conditions. Only the first
condition of type `WorkflowCompleted` counts. Whatever is missing or malformed reads as a run that
is still pending, so that reading a report never fails.
-/

namespace TraceWatch.Report

/-- What a report says about the completion of a job. An empty reason or message is no reason and
no message. -/
structure Condition where
  status : String
  reason : Option String
  message : Option String
deriving DecidableEq, Repr

/-- The text of a key, unless it is empty. -/
def textOf? (fields : JsonFields) (key : String) : Option String :=
  ((JsonFields.get? fields key).bind Json.string?).filter (· ≠ "")

/-- Whether an entry of the list is the condition that counts. -/
def isCompletion (fields : JsonFields) : Bool :=
  (JsonFields.get? fields "type").bind Json.string? = some "WorkflowCompleted"

/-- The condition that an entry of the list stands for, if it is the one that counts. -/
def conditionOf? : Json → Option Condition
  | .object fields =>
    if isCompletion fields then
      some ⟨((JsonFields.get? fields "status").bind Json.string?).getD "",
        textOf? fields "reason", textOf? fields "message"⟩
    else none
  | _ => none

/-- The entries of the list of conditions. -/
def entries (report : Json) : List Json :=
  (((report.get? "status").bind (·.get? "conditions")).bind Json.array?).getD []

/-- The condition that counts. -/
def completion? (report : Json) : Option Condition := (entries report).findSome? conditionOf?

/-- The status that a condition stands for. -/
def Condition.runStatus (condition : Condition) : RunStatus :=
  if condition.status = "True" then
    if condition.reason = some "WorkflowSucceeded" then .succeeded else .failed
  else if condition.status = "False" then
    if condition.reason = some "WorkflowRunning" then .running
    else if condition.reason = some "WorkflowPending" ∨ condition.reason = none then .pending
    else if condition.message.isSome then .failed
    else .pending
  else .pending

/-- The text of a condition: its reason and its message, as far as it has them. -/
def Condition.text (condition : Condition) : String :=
  match condition.reason, condition.message with
  | some reason, some message => reason ++ ": " ++ message
  | some reason, none => reason
  | none, some message => message
  | none, none => ""

/-- The status of the run that a report is about. -/
def runStatus (report : Json) : RunStatus :=
  ((completion? report).map Condition.runStatus).getD .pending

/-- The text that a report gives for the status. -/
def text (report : Json) : String := ((completion? report).map Condition.text).getD ""

end TraceWatch.Report
