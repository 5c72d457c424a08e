import TraceWatch.Proofs.Program.Laws

/-!
# Assignments

An assignment is what an execution is told to do: a monitor, a window and evaluators, and where the
job belongs. Once a run identifier is drawn, the assignment fixes the job that is submitted and,
once the clock is read, the run that is recorded. `Assignment.operation_run` lays the execution out
call by call.
-/

namespace TraceWatch

/-- What an execution is told to do. -/
structure Assignment where
  template : String
  org : String
  monitor : Monitor
  window : Window
  evaluators : List Evaluator

namespace Assignment

/-- The execution of an assignment. -/
def operation (x : Assignment) : Operation Run :=
  Service.execute x.template x.org x.monitor x.window x.evaluators

/-- The name of the job under a run identifier. -/
def jobName (x : Assignment) (id : Uuid) : String := TraceWatch.jobName x.monitor.name id

/-- The job that is submitted under a run identifier. -/
def spec (x : Assignment) (id : Uuid) : JobSpec :=
  .make (x.jobName id) x.org x.template x.monitor id x.window x.evaluators

/-- The run that is recorded under a run identifier. -/
def record (x : Assignment) (id : Uuid) (now : Timestamp) : Run :=
  .pending id x.monitor.id (x.jobName id) x.window x.evaluators now

/-- What an execution does when its job has been accepted: it records the run, and deletes the job
again if the record is refused. -/
def afterSubmission (x : Assignment) (id : Uuid) (job : JobRef) :
    Program (Except MonitorError Run) :=
  .call .now fun now => .call (.store (.createRun (x.record id now))) fun
    | .error e => .call (.plane (.delete job)) fun _ => .done (.error (.store e))
    | .ok () => .call (.count .runSubmitted) fun _ => .done (.ok (x.record id now))

/-- An execution draws an identifier and, if there is anything to evaluate, submits the job. -/
theorem operation_run (x : Assignment) :
    x.operation.run = .call .freshId fun id =>
      if x.evaluators.isEmpty then
        .done (.error (.validation (.nothingToRun x.monitor.name)))
      else .call (.plane (.submit (x.spec id))) fun
        | .error e => .done (.error (.plane e))
        | .ok job => x.afterSubmission id job := by
  refine Program.call_congr fun id => ?_
  cases x.evaluators.isEmpty with
  | true => rfl
  | false =>
    refine Program.call_congr fun r => ?_
    cases r with
    | error e => rfl
    | ok job =>
      refine Program.call_congr fun now => Program.call_congr fun r => ?_
      cases r <;> rfl

end Assignment

end TraceWatch
