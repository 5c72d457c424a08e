import TraceWatch.Store.Basic

/-!
# Calls of the store

A call of the store as data, the type of its answer, and what it does. Each call is one
indivisible step, however many operations are under way.
-/

namespace TraceWatch

/-- A call of the store. -/
inductive StoreCall where
  | createMonitor (m : Monitor)
  | updateDefinition (m : Monitor)
  | findMonitor (id : Uuid)
  | findByName (org name : String)
  | listMonitors (org : String) (filter : MonitorFilter)
  | dueMonitors (now : Timestamp)
  | advance (id : Uuid) (next : Timestamp)
  | suspend (id : Uuid)
  | resume (id : Uuid) (next : Timestamp)
  | deleteMonitor (id : Uuid)
  | createRun (r : Run)
  | findRun (id : Uuid)
  | latestRun (monitor : Uuid)
  | listRuns (monitor : Uuid) (limit : Option Nat)
  | inFlight
  | updateStatus (id : Uuid) (status : RunStatus) (message : Option String)

namespace StoreCall

/-- The type of a call's answer. -/
@[reducible]
def Answer : StoreCall → Type
  | createMonitor _ | updateDefinition _ | deleteMonitor _ | createRun _ | updateStatus _ _ _ =>
    Unit
  | findMonitor _ | findByName _ _ => Option Monitor
  | listMonitors _ _ | dueMonitors _ => List Monitor
  | advance _ _ | suspend _ | resume _ _ => Bool
  | findRun _ | latestRun _ => Option Run
  | listRuns _ _ => List Run
  | inFlight => List InFlightRun

/-- A change that may be refused. -/
def change (s : Store) : Except StoreError Store → Except StoreError Unit × Store
  | .ok changed => (.ok (), changed)
  | .error e => (.error e, s)

/-- A change that tells whether it was made. -/
def conditional (result : Store × Bool) : Except StoreError Bool × Store :=
  (.ok result.2, result.1)

/-- What a call answers, and the store after it. -/
def perform (now : Timestamp) (s : Store) : (c : StoreCall) → Except StoreError c.Answer × Store
  | createMonitor m => change s (s.createMonitor m)
  | updateDefinition m => change s (s.updateDefinition m)
  | findMonitor id => (.ok (s.findMonitor id), s)
  | findByName org name => (.ok (s.findByName org name), s)
  | listMonitors org filter => (.ok (s.listMonitors org filter), s)
  | dueMonitors at' => (.ok (s.dueMonitors at'), s)
  | advance id next => conditional (s.advance id next now)
  | suspend id => conditional (s.suspend id now)
  | resume id next => conditional (s.resume id next now)
  | deleteMonitor id => (.ok (), s.deleteMonitor id)
  | createRun r => change s (s.createRun r)
  | findRun id => (.ok (s.findRun id), s)
  | latestRun monitor => (.ok (s.latestRun monitor), s)
  | listRuns monitor limit => (.ok (s.listRuns monitor limit), s)
  | inFlight => (.ok s.inFlight, s)
  | updateStatus id status message => change s (s.updateStatus id status message now)

end StoreCall

end TraceWatch
