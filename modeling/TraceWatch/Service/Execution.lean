import TraceWatch.Service.Program

/-!
# Carrying out a run

A run is submitted to the workflow plane first and recorded afterwards. If it cannot be recorded,
the job just submitted is deleted again, as well as that can be done.
-/

namespace TraceWatch.Service

/-- Submits a run of a monitor over a window and records it. -/
def execute (template org : String) (m : Monitor) (window : Window)
    (evaluators : List Evaluator) : Operation Run := do
  let id ← Program.freshId
  let name := jobName m.name id
  if evaluators.isEmpty then throw (.validation (.nothingToRun m.name))
  let job ← Operation.plane (.submit (JobSpec.make name org template m id window evaluators))
  let run := Run.pending id m.id name window evaluators (← Program.now)
  match ← Program.store (.createRun run) with
  | .error e =>
    let _ ← Program.plane (.delete job)
    throw (.store e)
  | .ok () =>
    Program.count .runSubmitted
    return run

/-- Moves the schedule of a monitor on. The answer tells whether the monitor was still on it. -/
def advance (id : Uuid) (next : Timestamp) : Operation Bool := Operation.store (.advance id next)

end TraceWatch.Service
