import TraceWatch.Run.Report
import TraceWatch.Service.Execution
import TraceWatch.Service.Request

/-!
# Managing monitors

The operations that users of the service call. All of them belong to an organization and name
monitors by name. Reading a monitor asks the workflow plane how far its unfinished run has come;
what it answers is shown and not stored.
-/

namespace TraceWatch

/-- A monitor as its readers see it. -/
structure MonitorView where
  monitor : Monitor
  status : MonitorStatus
  latestRun : Option Run
deriving Repr

/-- The document of a monitor as its readers see it. -/
def MonitorView.toJson (view : MonitorView) : Json :=
  let latest := match view.latestRun with
    | none => []
    | some run => [("latest_run", run.toViewJson)]
  .object (view.monitor.toFields ++ ("status", .string view.status.word) :: latest)

namespace Service

/-- The monitor of an organization with a name. -/
def loadMonitor (org name : String) : Operation Monitor := do
  match ← Operation.store (.findByName org name) with
  | some m => return m
  | none => throw (.monitorNotFound org name)

/-- A run of a monitor. -/
def loadRun (m : Monitor) (id : Uuid) : Operation Run := do
  let missing := MonitorError.runNotFound id m.name
  match ← Operation.store (.findRun id) with
  | some run => if run.monitorId = m.id then return run else throw missing
  | none => throw missing

/-- The run as the workflow plane reports it now, or as it is stored if it has ended or the plane
cannot tell. -/
def refresh (org : String) (run : Run) : Program Run :=
  if run.status.isTerminal then return run else do
    match ← Program.plane (.resource (.run org run.jobName)) with
    | .error _ => return run
    | .ok report =>
      return run.observe (Report.runStatus report) (Report.text report) (← Program.now)

/-- The monitor as its readers see it. -/
def view (m : Monitor) : Operation MonitorView := do
  let latest ← match ← Operation.store (.latestRun m.id) with
    | none => pure none
    | some run => some <$> (refresh m.org run : Program Run)
  return ⟨m, m.status (latest.map Run.status), latest⟩

/-- The monitors as their readers see them, in the given order. -/
def viewAll : List Monitor → Operation (List MonitorView)
  | [] => return []
  | m :: rest => do
    let first ← view m
    let others ← viewAll rest
    return first :: others

/-- The runs as the workflow plane reports them, in the given order. -/
def refreshAll (org : String) : List Run → Program (List Run)
  | [] => return []
  | run :: rest => do
    let first ← refresh org run
    let others ← refreshAll org rest
    return first :: others

/-- A name that another monitor has taken in the meantime. -/
def takenName (org name : String) : StoreError → MonitorError
  | .conflict _ => .alreadyExists org name
  | e => .store e

/-- Creates a monitor. A past one is run at once; if that fails, the monitor is removed again. -/
def create (template org : String) (request : NewMonitor) : Operation MonitorView := do
  let now ← Program.now
  let request := request.truncate
  Operation.check (request.check now)
  if (← Operation.store (.findByName org request.name)).isSome then
    throw (.alreadyExists org request.name)
  let agentId ← Operation.plane (.agent org request.project request.agent)
  let environmentId ← Operation.plane (.environment org request.environment)
  let m := request.toMonitor (← Program.freshId) org agentId environmentId now
  match ← Program.store (.createMonitor m) with
  | .error e => throw (takenName org m.name e)
  | .ok () => pure ()
  match m.traceStart, m.traceEnd with
  | some start, some stop =>
    match ← Operation.attempt (execute template org m ⟨start, stop⟩ m.evaluators) with
    | .ok run => return ⟨m, m.status (some run.status), some run⟩
    | .error e =>
      let _ ← Program.store (.deleteMonitor m.id)
      throw e
  | _, _ => return ⟨m, m.status none, none⟩

/-- Shows a monitor. -/
def get (org name : String) : Operation MonitorView := do
  view (← loadMonitor org name)

/-- Shows the monitors of an organization that pass a filter, newest first. -/
def list (org : String) (filter : MonitorFilter) : Operation (List MonitorView) := do
  viewAll (← Operation.store (.listMonitors org filter))

/-- Edits a monitor. -/
def update (org name : String) (edit : Edit) : Operation MonitorView := do
  let m ← loadMonitor org name
  Operation.check (edit.check m)
  let edited := { edit.apply m with updatedAt := ← Program.now }
  Operation.store (.updateDefinition edited)
  view (← loadMonitor org name)

/-- Deletes the jobs of runs, as well as that can be done. -/
def deleteJobs (org : String) : List Run → Program Unit
  | [] => return ()
  | run :: rest => do
    let _ ← Program.plane (.delete (.run org run.jobName))
    deleteJobs org rest

/-- Deletes a monitor with its runs and their jobs. -/
def delete (org name : String) : Operation Unit := do
  let m ← loadMonitor org name
  let runs ← Operation.store (.listRuns m.id none)
  Operation.store (.deleteMonitor m.id)
  deleteJobs org runs

/-- Fails if a monitor cannot change its state. -/
def transition (result : Except StateFault Monitor) : Operation Monitor :=
  ExceptT.mk (.done (result.mapError .invalidState))

/-- Takes a monitor off its schedule. -/
def stop (org name : String) : Operation MonitorView := do
  let m ← loadMonitor org name
  let stopped ← transition (m.suspend (← Program.now))
  if ← Operation.store (.suspend stopped.id) then view stopped
  else
    let _ ← loadMonitor org name
    throw (.invalidState (.alreadyStopped name))

/-- Puts a monitor back on its schedule. -/
def start (org name : String) : Operation MonitorView := do
  let m ← loadMonitor org name
  let now ← Program.now
  let started ← transition (m.resume now)
  if ← Operation.store (.resume started.id (started.nextRun.getD now)) then view started
  else
    let _ ← loadMonitor org name
    throw (.invalidState (.alreadyActive name))

/-- Shows the runs of a monitor, newest first. -/
def runs (org name : String) (limit : Option Nat) : Operation (List Run) := do
  let m ← loadMonitor org name
  let stored ← Operation.store (.listRuns m.id limit)
  refreshAll org stored

/-- Carries out a run again, over its window and with its evaluators. -/
def rerun (template org name : String) (id : Uuid) : Operation Run := do
  let m ← loadMonitor org name
  let previous ← loadRun m id
  execute template org m previous.window previous.evaluators

/-- The log of a run. -/
def logs (org name : String) (id : Uuid) : Operation (List LogLine) := do
  let m ← loadMonitor org name
  let run ← loadRun m id
  Operation.plane (.logs org run.jobName)

end Service

end TraceWatch
