import TraceWatch.Run.Report
import TraceWatch.Service.Execution
import TraceWatch.Window

/-!
# Scheduler cycles

A cycle is one pass of the scheduler under the scheduler lock: it triggers every monitor that is
due and then asks how far the unfinished runs have come. Each trigger and each such question is a
unit of work. A cycle that is told to stop finishes its unit and begins no other; a unit that
fails keeps no other from being done.
-/

namespace TraceWatch

/-- What a cycle has done. -/
structure Tally where
  triggered : Nat
  failed : Nat
  reconciled : Nat
deriving DecidableEq, Repr

/-- What came of a cycle. -/
inductive CycleOutcome where
  /-- Somebody else holds the lock. -/
  | skipped
  | completed (tally : Tally)
deriving DecidableEq, Repr

namespace Service

/-- Runs a monitor over the window that is due and moves its schedule on. Whether the schedule
could be moved does not matter to the run. -/
def trigger (template : String) (m : Monitor) (now : Timestamp) : Operation Run :=
  match Plan.make m.nextRun m.interval now with
  | .error e => throw (.window e)
  | .ok none => ExceptT.mk .halt
  | .ok (some plan) => do
    let run ← execute template m.org m plan.window m.evaluators
    let _ ← Operation.attempt (advance m.id plan.nextRun)
    Program.count .monitorTriggered
    return run

/-- Triggers monitors one after the other. The second component tells whether all of them had
their turn. -/
def triggerAll (template : String) (now : Timestamp) :
    List Monitor → Tally → Program (Tally × Bool)
  | [], tally => return (tally, true)
  | m :: rest, tally => do
    if ← Program.cancelled then return (tally, false)
    match ← (trigger template m now).run with
    | .ok _ => triggerAll template now rest { tally with triggered := tally.triggered + 1 }
    | .error _ =>
      Program.count .triggerFailed
      triggerAll template now rest { tally with failed := tally.failed + 1 }

/-- Stores how far a run has come, if that has changed. -/
def reconcile (entry : InFlightRun) : Operation Bool := do
  let report ← Operation.plane (.resource (.run entry.org entry.run.jobName))
  let seen := Report.runStatus report
  if entry.run.status = seen then return false
  let run := entry.run.observe seen (Report.text report) (← Program.now)
  Operation.store (.updateStatus run.id run.status run.errorMessage)
  Program.count (.runMoved run.status)
  return true

/-- Reconciles runs one after the other, until it is told to stop. -/
def reconcileAll : List InFlightRun → Tally → Program Tally
  | [], tally => return tally
  | entry :: rest, tally => do
    if ← Program.cancelled then return tally
    match ← (reconcile entry).run with
    | .ok true => reconcileAll rest { tally with reconciled := tally.reconciled + 1 }
    | _ => reconcileAll rest tally

/-- The work of a cycle that holds the lock. -/
def lockedCycle (template : String) : Operation Tally := do
  let now ← Program.now
  let due ← Operation.store (.dueMonitors now)
  let (tally, finished) ← (triggerAll template now due ⟨0, 0, 0⟩ : Program _)
  if !finished then return tally
  let entries ← Operation.store .inFlight
  (reconcileAll entries tally : Program _)

/-- One cycle. -/
def cycle (template : String) : Operation CycleOutcome := do
  match ← Program.ask .acquireLock with
  | .error e => throw (.store e)
  | .ok false =>
    Program.count (.cycleEnded .skipped)
    return .skipped
  | .ok true =>
    let result ← Operation.attempt (lockedCycle template)
    let _ ← Program.ask .releaseLock
    match result with
    | .ok tally =>
      Program.count (.cycleEnded .completed)
      return .completed tally
    | .error e =>
      Program.count (.cycleEnded .failed)
      throw e

end Service

end TraceWatch
