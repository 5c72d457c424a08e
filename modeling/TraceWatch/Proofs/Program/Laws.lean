import TraceWatch.Service.Cycle
import TraceWatch.Service.Management

/-!
# Laws of programs

A program is a tree of calls, and `Program.bind` grafts trees onto its leaves; `bind_assoc` is the
law that lets a program be read from its first call on. An operation is a program whose value may be
a failure, and `Operation.run_bind` says how its steps hang together: `Operation.onward` goes on
after a success and passes a failure through. `Program.ReadsOnly` is the class of programs that
change nothing in the world around them, whatever they are answered.
-/

namespace TraceWatch

/-! ## Grafting -/

namespace Program

variable {α β γ : Type}

@[simp] theorem bind_done (v : α) (f : α → Program β) : (done v).bind f = f v := rfl

@[simp] theorem bind_halt (f : α → Program β) : halt.bind f = .halt := rfl

@[simp] theorem bind_call (c : Call) (next : c.Answer → Program α) (f : α → Program β) :
    (call c next).bind f = .call c fun answer => (next answer).bind f := rfl

/-- Grafting twice is grafting once. -/
theorem bind_assoc (p : Program α) (f : α → Program β) (g : β → Program γ) :
    (p.bind f).bind g = p.bind fun v => (f v).bind g := by
  induction p with
  | done v => rfl
  | halt => rfl
  | call c next ih => simp only [bind_call, ih]

/-- Two programs that make the same call are equal if they go on equally. -/
theorem call_congr {c : Call} {next next' : c.Answer → Program α}
    (h : ∀ answer, next answer = next' answer) : call c next = call c next' :=
  congrArg (call c) (funext h)

/-- Two programs that begin equally are equal if they go on equally. -/
theorem bind_congr {p : Program α} {f f' : α → Program β} (h : ∀ v, f v = f' v) :
    p.bind f = p.bind f' :=
  congrArg p.bind (funext h)

/-- To run a sequence is to run its first part and then, from there, its second part. -/
theorem run_bind {W : Type} (perform : (c : Call) → W → c.Answer × W) (f : α → Program β) :
    ∀ (p : Program α) (w : W), (p.bind f).run perform w =
      match p.run perform w with
      | (some v, w') => (f v).run perform w'
      | (none, w') => (none, w')
  | .done _, _ | .halt, _ => rfl
  | .call c next, w => run_bind perform f (next (perform c w).1) (perform c w).2

end Program

/-! ## Operations as programs -/

namespace Operation

variable {α β : Type}

/-- What follows a step of an operation: its continuation after a success, nothing after a
failure. -/
def onward (f : α → Operation β) : Except MonitorError α → Program (Except MonitorError β)
  | .ok v => (f v).run
  | .error e => .done (.error e)

@[simp] theorem onward_ok (f : α → Operation β) (v : α) : onward f (.ok v) = (f v).run := rfl

@[simp] theorem onward_error (f : α → Operation β) (e : MonitorError) :
    onward f (.error e) = .done (.error e) := rfl

theorem run_bind (x : Operation α) (f : α → Operation β) :
    (x >>= f).run = x.run.bind (onward f) :=
  Program.bind_congr fun r => by cases r <;> rfl

end Operation

/-! ## Calls that change nothing -/

/-- Whether a call of the store leaves it as it is. -/
def StoreCall.isRead : StoreCall → Bool
  | findMonitor _ | findByName _ _ | listMonitors _ _ | dueMonitors _ | findRun _ | latestRun _
  | listRuns _ _ | inFlight => true
  | createMonitor _ | updateDefinition _ | advance _ _ | suspend _ | resume _ _ | deleteMonitor _
  | createRun _ | updateStatus _ _ _ => false

/-- Whether a call of the workflow plane leaves its jobs as they are. -/
def PlaneCall.isRead : PlaneCall → Bool
  | submit _ | delete _ => false
  | resource _ | agent _ _ _ | environment _ _ | logs _ _ => true

/-- Whether a call leaves the world as it is; drawing an identifier does not. -/
def Call.isRead : Call → Bool
  | now | cancelled | count _ => true
  | freshId | acquireLock | releaseLock => false
  | store c => c.isRead
  | plane c => c.isRead

theorem StoreCall.perform_of_isRead {c : StoreCall} (h : c.isRead = true) (now : Timestamp)
    (s : Store) : (c.perform now s).2 = s := by
  cases c <;> first | rfl | cases h

namespace Program

variable {α β : Type}

/-- The program makes no call that changes anything, and comes to an end. -/
def ReadsOnly : Program α → Prop
  | done _ => True
  | halt => False
  | call c next => c.isRead = true ∧ ∀ answer, ReadsOnly (next answer)

theorem ReadsOnly.bind {f : α → Program β} (hf : ∀ v, (f v).ReadsOnly) :
    ∀ {p : Program α}, p.ReadsOnly → (p.bind f).ReadsOnly
  | done v, _ => hf v
  | call _ _, h => ⟨h.1, fun answer => ReadsOnly.bind hf (h.2 answer)⟩

end Program

/-! ## The operations that only read -/

namespace Service

open Program

theorem readsOnly_loadMonitor (org name : String) : (loadMonitor org name).run.ReadsOnly := by
  refine ⟨rfl, fun r => ?_⟩
  cases r with
  | error e => trivial
  | ok found => cases found <;> trivial

theorem readsOnly_loadRun (m : Monitor) (id : Uuid) : (loadRun m id).run.ReadsOnly := by
  refine ⟨rfl, fun r => ?_⟩
  cases r with
  | error e => trivial
  | ok found =>
    cases found with
    | none => trivial
    | some run =>
      show (if run.monitorId = m.id then _ else _ : Operation Run).run.ReadsOnly
      split <;> trivial

theorem readsOnly_refresh (org : String) (run : Run) : (refresh org run).ReadsOnly := by
  unfold refresh
  split
  · trivial
  · refine ⟨rfl, fun r => ?_⟩
    cases r with
    | error e => trivial
    | ok report => exact ⟨rfl, fun _ => trivial⟩

/-- A view is the latest run, refreshed if there is one, put beside the monitor. -/
theorem view_run (m : Monitor) :
    (view m).run = .call (.store (.latestRun m.id)) fun
      | .error e => .done (.error (.store e))
      | .ok none => .done (.ok ⟨m, m.status none, none⟩)
      | .ok (some run) => (refresh m.org run).bind fun shown =>
        .done (.ok ⟨m, m.status (some shown.status), some shown⟩) := by
  refine call_congr fun r => ?_
  cases r with
  | error e => rfl
  | ok latest =>
    cases latest with
    | none => rfl
    | some run =>
      show (((refresh m.org run).bind _).bind _).bind _ = _
      rw [bind_assoc, bind_assoc]
      exact bind_congr fun shown => rfl

theorem readsOnly_view (m : Monitor) : (view m).run.ReadsOnly := by
  rw [view_run]
  refine ⟨rfl, fun r => ?_⟩
  cases r with
  | error e => trivial
  | ok latest =>
    cases latest with
    | none => trivial
    | some run =>
      refine (readsOnly_refresh m.org run).bind fun shown => ?_
      trivial

theorem readsOnly_viewAll : ∀ ms : List Monitor, (viewAll ms).run.ReadsOnly
  | [] => trivial
  | m :: rest => by
    rw [viewAll, Operation.run_bind]
    refine (readsOnly_view m).bind fun first => ?_
    cases first with
    | error e => trivial
    | ok first =>
      rw [Operation.onward_ok, Operation.run_bind]
      refine (readsOnly_viewAll rest).bind fun others => ?_
      cases others <;> trivial

theorem readsOnly_refreshAll (org : String) : ∀ runs : List Run, (refreshAll org runs).ReadsOnly
  | [] => trivial
  | run :: rest => by
    refine (readsOnly_refresh org run).bind fun first => ?_
    refine (readsOnly_refreshAll org rest).bind fun others => ?_
    trivial

theorem readsOnly_get (org name : String) : (get org name).run.ReadsOnly := by
  rw [get, Operation.run_bind]
  refine (readsOnly_loadMonitor org name).bind fun found => ?_
  cases found with
  | error e => trivial
  | ok m => exact readsOnly_view m

theorem readsOnly_list (org : String) (filter : MonitorFilter) :
    (list org filter).run.ReadsOnly := by
  refine ⟨rfl, fun found => ?_⟩
  cases found with
  | error e => trivial
  | ok ms => exact readsOnly_viewAll ms

theorem readsOnly_runs (org name : String) (limit : Option Nat) :
    (runs org name limit).run.ReadsOnly := by
  rw [runs, Operation.run_bind]
  refine (readsOnly_loadMonitor org name).bind fun found => ?_
  cases found with
  | error e => trivial
  | ok m =>
    refine ⟨rfl, fun stored => ?_⟩
    cases stored with
    | error e => trivial
    | ok stored =>
      refine (readsOnly_refreshAll org stored).bind fun shown => ?_
      trivial

theorem readsOnly_logs (org name : String) (id : Uuid) : (logs org name id).run.ReadsOnly := by
  rw [logs, Operation.run_bind]
  refine (readsOnly_loadMonitor org name).bind fun found => ?_
  cases found with
  | error e => trivial
  | ok m =>
    rw [Operation.onward_ok, Operation.run_bind]
    refine (readsOnly_loadRun m id).bind fun run => ?_
    cases run with
    | error e => trivial
    | ok run => exact ⟨rfl, fun _ => trivial⟩

end Service

end TraceWatch
