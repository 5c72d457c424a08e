import TraceWatch.Run.Basic

/-!
# The store

The store holds monitors and runs, each in a list. No two monitors of one organization share a name
if all of them came through `Store.createMonitor`, and every run belongs to a stored monitor if all
of them came through `Store.createRun`; `Store.deleteMonitor` takes the runs of a monitor with it.
The instant at which a monitor is next due changes only through `advance`, `suspend` and `resume`,
each of which looks at what is stored before it writes.

The order of a list is not part of what is stored. It is the order in which the store yields its
entries, and a store may yield them in any: to store something is to put it anywhere among them,
and one that puts it behind the others is a store like any other. The order shows in what is read
only where entries have one instant in common, by which they are compared: in the lists that are
sorted by such an instant, and in `Store.latestRun`. What holds for a store therefore has to be
looked at in every order of its entries, wherever this matters.
-/

namespace TraceWatch

/-- What is stored. -/
structure Store where
  monitors : List Monitor
  runs : List Run
deriving Repr

namespace Store

/-- The store that holds nothing. -/
def empty : Store := ⟨[], []⟩

/-! ## Looking things up -/

/-- The monitor with an identifier. -/
def findMonitor (s : Store) (id : Uuid) : Option Monitor := s.monitors.find? (·.id = id)

/-- The monitor of an organization with a name. -/
def findByName (s : Store) (org name : String) : Option Monitor :=
  s.monitors.find? fun m => m.org = org ∧ m.name = name

/-- The monitors of an organization that pass a filter, newest first. -/
def listMonitors (s : Store) (org : String) (filter : MonitorFilter) : List Monitor :=
  (s.monitors.filter fun m => m.org = org && filter.admits m).mergeSort
    fun a b => b.createdAt ≤ a.createdAt

/-- The order of instants of which some may be missing; a missing one comes first. -/
def instantLe : Option Timestamp → Option Timestamp → Bool
  | none, _ => true
  | some _, none => false
  | some a, some b => a ≤ b

/-- The monitors whose instant has come, the longest due first. -/
def dueMonitors (s : Store) (now : Timestamp) : List Monitor :=
  (s.monitors.filter (·.isDue now)).mergeSort fun a b => instantLe a.nextRun b.nextRun

/-- The run with an identifier. -/
def findRun (s : Store) (id : Uuid) : Option Run := s.runs.find? (·.id = id)

/-- The runs of a monitor, in the order in which the store yields them. -/
def runsOf (s : Store) (monitor : Uuid) : List Run := s.runs.filter (·.monitorId = monitor)

/-- The later created of two runs; of two created at once the one that is yielded second. -/
def newer (best : Option Run) (r : Run) : Option Run :=
  match best with
  | none => some r
  | some b => if b.createdAt ≤ r.createdAt then some r else some b

/-- The run of a monitor that was created last; of several created at once, the one that the store
yields last. -/
def latestRun (s : Store) (monitor : Uuid) : Option Run := (s.runsOf monitor).foldl newer none

/-- The runs of a monitor, newest first, at most `limit` of them. Runs that were created at once
stand in the order in which the store yields them. -/
def listRuns (s : Store) (monitor : Uuid) (limit : Option Nat) : List Run :=
  let sorted := (s.runsOf monitor).mergeSort fun a b => b.createdAt ≤ a.createdAt
  match limit with
  | none => sorted
  | some n => sorted.take n

/-- A run with its organization, unless the run has ended or its monitor is gone. -/
def inFlightOf (s : Store) (r : Run) : Option InFlightRun :=
  if r.status.isTerminal then none else (s.findMonitor r.monitorId).map fun m => ⟨r, m.org⟩

/-- The runs that have not ended, oldest first. -/
def inFlight (s : Store) : List InFlightRun :=
  (s.runs.filterMap s.inFlightOf).mergeSort fun a b => a.run.createdAt ≤ b.run.createdAt

/-! ## Changing things -/

/-- Changes the monitor with an identifier. -/
def modifyMonitor (s : Store) (id : Uuid) (f : Monitor → Monitor) : Store :=
  { s with monitors := s.monitors.map fun m => if m.id = id then f m else m }

/-- Changes the run with an identifier. -/
def modifyRun (s : Store) (id : Uuid) (f : Run → Run) : Store :=
  { s with runs := s.runs.map fun r => if r.id = id then f r else r }

/-- Puts a monitor into the store, in place of one with the same identifier. -/
def putMonitor (s : Store) (m : Monitor) : Store :=
  if (s.findMonitor m.id).isSome then s.modifyMonitor m.id fun _ => m
  else { s with monitors := s.monitors ++ [m] }

/-- Puts a run into the store, in place of one with the same identifier. -/
def putRun (s : Store) (r : Run) : Store :=
  if (s.findRun r.id).isSome then s.modifyRun r.id fun _ => r
  else { s with runs := s.runs ++ [r] }

/-- Adds a monitor under a name that is free in its organization. -/
def createMonitor (s : Store) (m : Monitor) : Except StoreError Store :=
  if (s.findByName m.org m.name).isSome then
    .error (.conflict
      ("monitor '" ++ m.name ++ "' already exists in organization '" ++ m.org ++ "'"))
  else .ok (s.putMonitor m)

/-- Overwrites the fields of a monitor that its users edit. -/
def updateDefinition (s : Store) (m : Monitor) : Except StoreError Store :=
  if (s.findMonitor m.id).isSome then
    .ok <| s.modifyMonitor m.id fun stored => { stored with
      displayName := m.displayName
      evaluators := m.evaluators
      samplingRate := m.samplingRate
      interval := m.interval
      updatedAt := m.updatedAt }
  else .error (.notFound ("monitor " ++ m.id.render))

/-- Changes when a monitor is due, provided the monitor is there and `may` allows it. The second
component tells whether it did. -/
def reschedule (s : Store) (id : Uuid) (may : Monitor → Bool) (next : Option Timestamp)
    (now : Timestamp) : Store × Bool :=
  if (s.findMonitor id).any may then
    (s.modifyMonitor id fun m => { m with nextRun := next, updatedAt := now }, true)
  else (s, false)

/-- Moves the instant of a monitor that is on its schedule. -/
def advance (s : Store) (id : Uuid) (next now : Timestamp) : Store × Bool :=
  s.reschedule id (fun m => m.nextRun.isSome) (some next) now

/-- Takes a future monitor off its schedule. -/
def suspend (s : Store) (id : Uuid) (now : Timestamp) : Store × Bool :=
  s.reschedule id (fun m => m.isFuture && m.nextRun.isSome) none now

/-- Puts a suspended monitor on its schedule. -/
def resume (s : Store) (id : Uuid) (next now : Timestamp) : Store × Bool :=
  s.reschedule id (fun m => m.isFuture && m.nextRun.isNone) (some next) now

/-- Removes a monitor and its runs. -/
def deleteMonitor (s : Store) (id : Uuid) : Store :=
  { monitors := s.monitors.filter (·.id ≠ id)
    runs := s.runs.filter (·.monitorId ≠ id) }

/-- Adds a run of a monitor that is there. -/
def createRun (s : Store) (r : Run) : Except StoreError Store :=
  if (s.findMonitor r.monitorId).isSome then .ok (s.putRun r)
  else .error (.notFound ("monitor " ++ r.monitorId.render))

/-- Overwrites the status of a run. -/
def updateStatus (s : Store) (id : Uuid) (status : RunStatus) (message : Option String)
    (now : Timestamp) : Except StoreError Store :=
  if (s.findRun id).isSome then
    .ok <| s.modifyRun id fun r => { r with status, errorMessage := message, updatedAt := now }
  else .error (.notFound ("monitor run " ++ id.render))

end Store

end TraceWatch
