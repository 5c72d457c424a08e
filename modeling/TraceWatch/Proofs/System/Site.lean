import TraceWatch.Service.Cycle
import TraceWatch.Service.Management

/-!
# Sites

A site is a service at work: any number of tasks, each a program somewhere on its way, that share
one store, one scheduler lock and one clock. `Site.Step` lets one thing happen, most of all one call
of one task be answered; nothing is said about whose turn it is, so `Site.History` ranges over every
interleaving, call by call. What the surroundings decide is left open: the clock moves to any
instant, an identifier is any one not handed out before, a task may be told to stop at any time, and
the workflow plane answers anything. Only the store and the lock answer as they are bound to.
-/

namespace TraceWatch

/-! ## What is asked of the service -/

/-- An operation of the manager, or a cycle of a scheduler. -/
inductive Activity where
  | cycle (template : String)
  | create (template org : String) (request : NewMonitor)
  | get (org name : String)
  | list (org : String) (filter : MonitorFilter)
  | update (org name : String) (edit : Edit)
  | delete (org name : String)
  | stop (org name : String)
  | start (org name : String)
  | runs (org name : String) (limit : Option Nat)
  | rerun (template org name : String) (id : Uuid)
  | logs (org name : String) (id : Uuid)

namespace Activity

/-- The type of what an activity returns. -/
@[reducible]
def Result : Activity → Type
  | cycle _ => CycleOutcome
  | create _ _ _ | get _ _ | update _ _ _ | stop _ _ | start _ _ => MonitorView
  | list _ _ => List MonitorView
  | delete _ _ => Unit
  | runs _ _ _ => List Run
  | rerun _ _ _ _ => Run
  | logs _ _ _ => List LogLine

/-- The operation that carries an activity out. -/
def operation : (a : Activity) → Operation a.Result
  | cycle template => Service.cycle template
  | create template org request => Service.create template org request
  | get org name => Service.get org name
  | list org filter => Service.list org filter
  | update org name edit => Service.update org name edit
  | delete org name => Service.delete org name
  | stop org name => Service.stop org name
  | start org name => Service.start org name
  | runs org name limit => Service.runs org name limit
  | rerun template org name id => Service.rerun template org name id
  | logs org name id => Service.logs org name id

end Activity

/-- An activity under way, with what is left of its program. -/
structure Task where
  activity : Activity
  rest : Program (Except MonitorError activity.Result)

namespace Task

/-- An activity at its beginning. -/
def new (a : Activity) : Task := ⟨a, a.operation.run⟩

/-- The task has nothing left to do: it has returned, or it has left the calendar. -/
def IsOver (task : Task) : Prop := task.rest = .halt ∨ ∃ result, task.rest = .done result

instance : (task : Task) → Decidable task.IsOver
  | ⟨_, .halt⟩ => .isTrue (.inl rfl)
  | ⟨_, .done result⟩ => .isTrue (.inr ⟨result, rfl⟩)
  | ⟨_, .call _ _⟩ => .isFalse fun h => h.elim (fun h => (by cases h)) fun ⟨_, h⟩ => (by cases h)

/-- The task has returned, and not with an error. -/
def HasSucceeded (task : Task) : Prop := ∃ result, task.rest = .done (.ok result)

instance : (task : Task) → Decidable task.HasSucceeded
  | ⟨_, .done (.ok result)⟩ => .isTrue ⟨result, rfl⟩
  | ⟨_, .done (.error _)⟩ | ⟨_, .halt⟩ | ⟨_, .call _ _⟩ => .isFalse fun ⟨_, h⟩ => (by cases h)

/-- The task has returned with an error, and this is the error. -/
def HasFailed (e : MonitorError) (task : Task) : Prop := task.rest = .done (.error e)

instance (e : MonitorError) : (task : Task) → Decidable (task.HasFailed e)
  | ⟨_, .done (.error e')⟩ =>
    decidable_of_iff (e' = e) ⟨fun h => h ▸ rfl, fun h => Except.error.inj (Program.done.inj h)⟩
  | ⟨_, .done (.ok _)⟩ | ⟨_, .halt⟩ | ⟨_, .call _ _⟩ => .isFalse nofun

end Task

/-! ## What the tasks share -/

/-- What the tasks of a site have in common. -/
structure Commons where
  store : Store
  /-- The task that holds the scheduler lock. -/
  holder : Option Nat
  clock : Timestamp
  /-- The identifiers handed out so far. -/
  issued : List Uuid

namespace Commons

/-- The lock is free if this task held it. -/
def freeLock (w : Commons) (task : Nat) : Commons :=
  if w.holder = some task then { w with holder := none } else w

theorem freeLock_store (w : Commons) (task : Nat) : (w.freeLock task).store = w.store := by
  rw [freeLock]
  split <;> rfl

theorem freeLock_clock (w : Commons) (task : Nat) : (w.freeLock task).clock = w.clock := by
  rw [freeLock]
  split <;> rfl

theorem freeLock_issued (w : Commons) (task : Nat) : (w.freeLock task).issued = w.issued := by
  rw [freeLock]
  split <;> rfl

/-- What a call of a task may be answered, and what the tasks share afterwards. -/
def Answers (w : Commons) (task : Nat) : (c : Call) → c.Answer → Commons → Prop
  | .now, t, w' => t = w.clock ∧ w' = w
  | .freshId, id, w' => id ∉ w.issued ∧ w' = { w with issued := id :: w.issued }
  | .cancelled, _, w' => w' = w
  | .count _, _, w' => w' = w
  | .acquireLock, taken, w' =>
    (w.holder = none ∧ taken = .ok true ∧ w' = { w with holder := some task }) ∨
      (w.holder ≠ none ∧ taken = .ok false ∧ w' = w)
  | .releaseLock, freed, w' => freed = .ok () ∧ w' = w.freeLock task
  | .store c, answer, w' =>
    answer = (c.perform w.clock w.store).1 ∧ w' = { w with store := (c.perform w.clock w.store).2 }
  | .plane _, _, w' => w' = w

end Commons

/-! ## What can happen -/

/-- What stands at a place after something has been added to a list stood there, or has been
added. -/
theorem of_getElem?_concat {α : Type} {xs : List α} {x y : α} {i : Nat}
    (h : (xs ++ [x])[i]? = some y) : xs[i]? = some y ∨ (i = xs.length ∧ y = x) := by
  rcases Nat.lt_trichotomy i xs.length with hlt | rfl | hgt
  · exact .inl (by rwa [List.getElem?_append_left hlt] at h)
  · rw [List.getElem?_concat_length] at h
    exact .inr ⟨rfl, (Option.some.inj h).symm⟩
  · rw [List.getElem?_eq_none (by rw [List.length_append]; exact hgt)] at h
    cases h

/-- A service at work. -/
structure Site where
  commons : Commons
  tasks : List Task

/-- Something that happens at a site. Tasks are known by the order in which they began. -/
inductive Event where
  /-- The clock moves. -/
  | tick (t : Timestamp)
  /-- A task begins. -/
  | begins (a : Activity)
  /-- A call of a task is answered. -/
  | call (task : Nat) (a : Activity) (c : Call) (answer : c.Answer)
  /-- A task that has left the calendar loses what it held. -/
  | drops (task : Nat)

namespace Site

/-- One thing happens. -/
inductive Step : Site → Event → Site → Prop
  | tick (w : Commons) (tasks : List Task) (t : Timestamp) :
    Step ⟨w, tasks⟩ (.tick t) ⟨{ w with clock := t }, tasks⟩
  | begins (w : Commons) (tasks : List Task) (a : Activity) :
    Step ⟨w, tasks⟩ (.begins a) ⟨w, tasks ++ [.new a]⟩
  | call {w w' : Commons} {tasks : List Task} {i : Nat} {a : Activity} {c : Call}
    {next : c.Answer → Program (Except MonitorError a.Result)} {answer : c.Answer} :
    tasks[i]? = some ⟨a, .call c next⟩ → w.Answers i c answer w' →
      Step ⟨w, tasks⟩ (.call i a c answer) ⟨w', tasks.set i ⟨a, next answer⟩⟩
  | drops {w : Commons} {tasks : List Task} {i : Nat} {a : Activity} :
    tasks[i]? = some ⟨a, .halt⟩ → Step ⟨w, tasks⟩ (.drops i) ⟨w.freeLock i, tasks⟩

/-- One thing after the other happens, the latest last. -/
inductive History (s : Site) : List Event → Site → Prop
  | nil : History s [] s
  | snoc {es : List Event} {e : Event} {s' s'' : Site} :
    History s es s' → Step s' e s'' → History s (es ++ [e]) s''

theorem History.append {s s' : Site} {es : List Event} (h : History s es s') :
    ∀ {es' : List Event} {s'' : Site}, History s' es' s'' → History s (es ++ es') s''
  | _, _, .nil => by rw [List.append_nil]; exact h
  | _, _, .snoc h' hstep => by rw [← List.append_assoc]; exact .snoc (h.append h') hstep

/-- A site at its beginning: no task has begun, nobody holds the lock, each identifier in the store
has been handed out, and none stands for two monitors. -/
structure IsFresh (s : Site) : Prop where
  tasks : s.tasks = []
  holder : s.commons.holder = none
  monitorIds : (s.commons.store.monitors.map Monitor.id).Nodup
  monitorIssued : ∀ m ∈ s.commons.store.monitors, m.id ∈ s.commons.issued
  runIssued : ∀ r ∈ s.commons.store.runs, r.id ∈ s.commons.issued

end Site

end TraceWatch
