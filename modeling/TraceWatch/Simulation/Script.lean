import TraceWatch.Service.Program

/-!
# Scripts

A script makes chosen calls of a simulation fail, or lets something else happen right before or
after them. A script names the calls it waits for, how many of them it lets pass, and how many it
acts on.
-/

namespace TraceWatch.Simulation

/-- The name under which scripts wait for a call of the store. -/
def storeLabel : StoreCall → String
  | .createMonitor _ => "monitors.create"
  | .updateDefinition _ => "monitors.update_definition"
  | .findMonitor _ => "monitors.find_by_id"
  | .findByName _ _ => "monitors.find_by_name"
  | .listMonitors _ _ => "monitors.list"
  | .dueMonitors _ => "monitors.find_due"
  | .advance _ _ => "monitors.advance"
  | .suspend _ => "monitors.suspend"
  | .resume _ _ => "monitors.resume"
  | .deleteMonitor _ => "monitors.delete"
  | .createRun _ => "runs.create"
  | .findRun _ => "runs.find_by_id"
  | .latestRun _ => "runs.find_latest"
  | .listRuns _ _ => "runs.list_by_monitor"
  | .inFlight => "runs.find_in_flight"
  | .updateStatus _ _ _ => "runs.update_status"

/-- The name under which scripts wait for a call of the workflow plane. -/
def planeLabel : PlaneCall → String
  | .submit _ => "submit"
  | .delete _ => "delete"
  | .resource _ => "get_resource"
  | .agent _ _ _ => "agent"
  | .environment _ _ => "environment"
  | .logs _ _ => "logs"

/-- The names of the calls of the workflow plane. -/
def planeLabels : List String :=
  ["submit", "delete", "get_resource", "agent", "environment", "logs"]

/-- The names of the calls of the store and of the lock. -/
def storeLabels : List String :=
  ["monitors.create", "monitors.update_definition", "monitors.find_by_id",
    "monitors.find_by_name", "monitors.list", "monitors.find_due", "monitors.advance",
    "monitors.suspend", "monitors.resume", "monitors.delete", "runs.create", "runs.find_by_id",
    "runs.find_latest", "runs.list_by_monitor", "runs.find_in_flight", "runs.update_status",
    "lock.acquire", "lock.release"]

/-- Something that happens beside the operation under way. -/
inductive Action where
  | suspend (id : Uuid)
  | resume (id : Uuid) (next : Timestamp)
  | advance (id : Uuid) (next : Timestamp)
  | delete (id : Uuid)
  | insert (m : Monitor)
  /-- Tells the cycle begun last to stop. -/
  | cancel
  /-- Tells the loop asked for last to stop. -/
  | shutdown
  | passTime (milliseconds : Int)
deriving Repr

/-- What a script does. -/
inductive Effect where
  | failStore (e : StoreError)
  | failPlane (e : PlaneError)
  | before (actions : List Action)
  | after (actions : List Action)
deriving Repr

namespace Effect

/-- The error of a script that makes calls of the store or the lock fail. -/
def storeError? : Effect → Option StoreError
  | failStore e => some e
  | _ => none

/-- The error of a script that makes calls of the workflow plane fail. -/
def planeError? : Effect → Option PlaneError
  | failPlane e => some e
  | _ => none

/-- The actions of a script that acts before calls. -/
def before? : Effect → Option (List Action)
  | before actions => some actions
  | _ => none

/-- The actions of a script that acts after calls. -/
def after? : Effect → Option (List Action)
  | after actions => some actions
  | _ => none

end Effect

/-- A script that waits for calls. -/
structure Script where
  label : String
  skip : Nat
  times : Nat
  effect : Effect
deriving Repr

/-- Shows a call to the scripts of one sort: the first of them that waits for such calls lets it
pass or acts on it, and the others do not see it. -/
def consult {α : Type} (sort : Effect → Option α) (label : String) :
    List Script → Option α × List Script
  | [] => (none, [])
  | script :: rest =>
    match sort script.effect with
    | some effect =>
      if script.label = label ∧ script.times ≠ 0 then
        if script.skip = 0 then (some effect, { script with times := script.times - 1 } :: rest)
        else (none, { script with skip := script.skip - 1 } :: rest)
      else
        let (found, rest) := consult sort label rest
        (found, script :: rest)
    | none =>
      let (found, rest) := consult sort label rest
      (found, script :: rest)

end TraceWatch.Simulation
