import TraceWatch.Proofs.Execution.Assignment
import TraceWatch.Proofs.System.Site

/-!
# Phases

At each moment an activity is in a phase: what it has learnt and has yet to use. A phase holds
exactly the data that the calls to come are made of, so a phase and not a program is what an
invariant speaks about. `Passage` says which call an activity may make in which phase, and where the
answer takes it. Calls that only read are allowed loosely; every call that changes something is
allowed with its own arguments only.
-/

namespace TraceWatch

/-! ## What a report comes to -/

/-- The message that is stored with the status that a report stands for: its text, if the run has
failed and there is any. -/
def Report.message (report : Json) : Option String :=
  if Report.runStatus report = .failed ∧ Report.text report ≠ "" then some (Report.text report)
  else none

/-- A run that a report has seen in another status takes over what the report says. -/
theorem Run.observe_report {r : Run} {report : Json} (h : r.status ≠ Report.runStatus report)
    (now : Timestamp) :
    r.observe (Report.runStatus report) (Report.text report) now =
      { r with status := Report.runStatus report, errorMessage := Report.message report,
               updatedAt := now } := by
  rw [observe, if_neg h, Report.message]

/-! ## The phases -/

/-- What an execution is for. -/
inductive Purpose where
  /-- A trigger of a cycle that reads the clock at `now`, has the monitors `rest` still to come, and
  moves the schedule to `next` afterwards. -/
  | trigger (now : Timestamp) (rest : List Monitor) (next : Timestamp)
  /-- The only run of a past monitor, while that is created. -/
  | initial
  | rerun

/-- Where an activity stands. -/
inductive Phase where
  /-- It has nothing to go by: it begins, it ends, or all it does is read. -/
  | idle
  /-- A cycle has taken the lock. -/
  | locked
  /-- A cycle has read the clock. -/
  | timed (now : Timestamp)
  /-- A cycle goes through what is due; of it, these monitors are left. -/
  | rounds (now : Timestamp) (due : List Monitor)
  /-- A run has been recorded, and the schedule of its monitor is to be moved on. -/
  | advancing (now : Timestamp) (rest : List Monitor) (m : Monitor) (next : Timestamp)
  /-- A cycle asks how far the runs have come that had not ended; of those, these are left. -/
  | tending (entries : List InFlightRun)
  /-- It has been told that one of them has come further. -/
  | told (entry : InFlightRun) (report : Json) (rest : List InFlightRun)
  /-- An execution has drawn its identifier. -/
  | submitting (k : Purpose) (x : Assignment) (id : Uuid)
  /-- The job of an execution has been accepted. -/
  | accepted (k : Purpose) (x : Assignment) (id : Uuid) (job : JobRef)
  /-- An execution has read the clock for its record. -/
  | stamped (k : Purpose) (x : Assignment) (id : Uuid) (job : JobRef) (now : Timestamp)
  /-- The record of an execution has been refused, and its job is to be deleted. -/
  | refused (k : Purpose) (x : Assignment) (id : Uuid) (job : JobRef)
  /-- A creation has read the clock. -/
  | dated (now : Timestamp)
  /-- A creation has put its monitor together. -/
  | drafted (m : Monitor)
  /-- The monitor of a creation is in the store. -/
  | created (m : Monitor)
  /-- A monitor has been found by its name. -/
  | loaded (m : Monitor)
  /-- And the clock has been read. -/
  | poised (m : Monitor) (now : Timestamp)
  | stopped (m : Monitor)
  | started (m : Monitor)
  /-- A deletion has listed the runs of its monitor. -/
  | listed (m : Monitor) (runs : List Run)
  /-- The monitor is gone, and the jobs of these runs are to be deleted. -/
  | cleaning (m : Monitor) (runs : List Run)
  /-- A run to be carried out again has been found. -/
  | chosen (m : Monitor) (r : Run)

namespace Purpose

/-- The activities that carry out executions for a purpose. -/
def Suits : Purpose → Activity → Prop
  | trigger _ _ _, .cycle _ => True
  | initial, .create _ _ _ => True
  | rerun, .rerun _ _ _ _ => True
  | _, _ => False

/-- The phase after an execution has recorded its run. -/
def afterRecord (x : Assignment) : Purpose → Phase
  | trigger now rest next => .advancing now rest x.monitor next
  | initial | rerun => .idle

/-- The phase after an execution has failed. -/
def afterFailure (x : Assignment) : Purpose → Phase
  | trigger now rest _ => .rounds now rest
  | initial => .created x.monitor
  | rerun => .idle

end Purpose

namespace Phase

/-- Calls that only read may be made here, and change nothing. -/
def MayRead : Phase → Prop
  | idle | rounds _ _ | tending _ | told _ _ _ | dated _ | created _ | stopped _ | started _ => True
  | _ => False

/-- The activity may leave the calendar here. Only a trigger computes with instants. -/
def MayHalt : Phase → Prop
  | idle | rounds _ _ => True
  | _ => False

/-- The activity may end here: it holds neither the lock nor a job that is not accounted for. -/
def IsSettled : Phase → Prop
  | idle | dated _ | created _ | loaded _ | poised _ _ | stopped _ | started _ | chosen _ _ => True
  | cleaning _ runs => runs = []
  | _ => False

end Phase

namespace Activity

/-- The organization and the name of the monitor that an activity looks for. -/
def target : Activity → Option (String × String)
  | update org name _ | delete org name | stop org name | start org name
  | rerun _ org name _ => some (org, name)
  | _ => none

/-- Whether an activity deletes a monitor. -/
def isDelete : Activity → Bool
  | delete _ _ => true
  | _ => false

/-- Where an activity may end with a result. One that stops, starts or deletes a monitor and
succeeds has done so. -/
def MayEnd : (a : Activity) → Except MonitorError a.Result → Phase → Prop
  | stop org name, .ok _, φ => ∃ m, φ = .stopped m ∧ m.org = org ∧ m.name = name
  | start org name, .ok _, φ => ∃ m, φ = .started m ∧ m.org = org ∧ m.name = name
  | delete org name, .ok _, φ => ∃ m, φ = .cleaning m [] ∧ m.org = org ∧ m.name = name
  | _, _, φ => φ.IsSettled

/-- An activity ends settled, whatever it ends with. -/
theorem MayEnd.isSettled {a : Activity} {result : Except MonitorError a.Result}
    {φ : Phase} (h : a.MayEnd result φ) : φ.IsSettled := by
  unfold Activity.MayEnd at h
  split at h
  · obtain ⟨m, rfl, -⟩ := h
    trivial
  · obtain ⟨m, rfl, -⟩ := h
    trivial
  · obtain ⟨m, rfl, -⟩ := h
    rfl
  · exact h

end Activity

/-- A call and its answer take an activity from one phase to another. -/
inductive Passage : Activity → Phase → (c : Call) → c.Answer → Phase → Prop
  -- Reading. A deletion reads only what it goes by.
  | read {a : Activity} {φ : Phase} {c : Call} {answer : c.Answer} :
    c.isRead = true → φ.MayRead → a.isDelete = false → Passage a φ c answer φ
  /-- An identifier is drawn and not used. -/
  | waste {a : Activity} {φ : Phase} {id : Uuid} : φ.MayRead ∨ (∃ m r, φ = .chosen m r) →
    Passage a φ .freshId id φ
  -- Finding a monitor.
  | load {a : Activity} {m : Monitor} : a.target = some (m.org, m.name) →
    Passage a .idle (.store (.findByName m.org m.name)) (.ok (some m)) (.loaded m)
  | miss {a : Activity} {org name : String} :
    Passage a .idle (.store (.findByName org name)) (.ok none) .idle
  | pause {a : Activity} {m : Monitor} {now : Timestamp} :
    Passage a (.loaded m) .now now (.poised m now)
  -- A cycle.
  | lock {template : String} :
    Passage (.cycle template) .idle .acquireLock (.ok true) .locked
  | busy {template : String} :
    Passage (.cycle template) .idle .acquireLock (.ok false) .idle
  | time {template : String} {now : Timestamp} :
    Passage (.cycle template) .locked .now now (.timed now)
  | snapshot {template : String} {now : Timestamp} {due : List Monitor} :
    Passage (.cycle template) (.timed now) (.store (.dueMonitors now)) (.ok due) (.rounds now due)
  | aim {template : String} {now : Timestamp} {passed rest : List Monitor} {m : Monitor}
    {plan : Plan} {id : Uuid} : Plan.make m.nextRun m.interval now = .ok (some plan) →
    Passage (.cycle template) (.rounds now (passed ++ m :: rest)) .freshId id
      (.submitting (.trigger now rest plan.nextRun)
        ⟨template, m.org, m, plan.window, m.evaluators⟩ id)
  | tally {template : String} {now : Timestamp} {rest : List Monitor} {m : Monitor}
    {next : Timestamp} {event : Counter} :
    Passage (.cycle template) (.advancing now rest m next) (.count event) ()
      (.advancing now rest m next)
  | advance {template : String} {now : Timestamp} {rest : List Monitor} {m : Monitor}
    {next : Timestamp} {answer : Except StoreError Bool} :
    Passage (.cycle template) (.advancing now rest m next) (.store (.advance m.id next)) answer
      (.rounds now rest)
  | unlock {template : String} {now : Timestamp} {due : List Monitor}
    {answer : Except StoreError Unit} :
    Passage (.cycle template) (.rounds now due) .releaseLock answer .idle
  -- The second half of a cycle.
  | survey {template : String} {now : Timestamp} {due : List Monitor}
    {entries : List InFlightRun} :
    Passage (.cycle template) (.rounds now due) (.store .inFlight) (.ok entries) (.tending entries)
  | consult {template : String} {passed rest : List InFlightRun} {entry : InFlightRun}
    {report : Json} : entry.run.status ≠ Report.runStatus report →
    Passage (.cycle template) (.tending (passed ++ entry :: rest))
      (.plane (.resource (.run entry.org entry.run.jobName))) (.ok report) (.told entry report rest)
  | tend {template : String} {entry : InFlightRun} {report : Json} {rest : List InFlightRun}
    {answer : Except StoreError Unit} :
    Passage (.cycle template) (.told entry report rest)
      (.store (.updateStatus entry.run.id (Report.runStatus report) (Report.message report))) answer
      (.tending rest)
  | leave {template : String} {entries : List InFlightRun} {answer : Except StoreError Unit} :
    Passage (.cycle template) (.tending entries) .releaseLock answer .idle
  -- An execution.
  | submit {a : Activity} {k : Purpose} {x : Assignment} {id : Uuid} {job : JobRef} : k.Suits a →
    Passage a (.submitting k x id) (.plane (.submit (x.spec id))) (.ok job) (.accepted k x id job)
  | reject {a : Activity} {k : Purpose} {x : Assignment} {id : Uuid} {e : PlaneError} : k.Suits a →
    Passage a (.submitting k x id) (.plane (.submit (x.spec id))) (.error e) (k.afterFailure x)
  | stamp {a : Activity} {k : Purpose} {x : Assignment} {id : Uuid} {job : JobRef}
    {now : Timestamp} : k.Suits a →
    Passage a (.accepted k x id job) .now now (.stamped k x id job now)
  | record {a : Activity} {k : Purpose} {x : Assignment} {id : Uuid} {job : JobRef}
    {now : Timestamp} : k.Suits a →
    Passage a (.stamped k x id job now) (.store (.createRun (x.record id now))) (.ok ())
      (k.afterRecord x)
  | refuse {a : Activity} {k : Purpose} {x : Assignment} {id : Uuid} {job : JobRef}
    {now : Timestamp} {e : StoreError} : k.Suits a →
    Passage a (.stamped k x id job now) (.store (.createRun (x.record id now))) (.error e)
      (.refused k x id job)
  | compensate {a : Activity} {k : Purpose} {x : Assignment} {id : Uuid} {job : JobRef}
    {answer : Except PlaneError Unit} : k.Suits a →
    Passage a (.refused k x id job) (.plane (.delete job)) answer (k.afterFailure x)
  -- Creating a monitor.
  | date {template org : String} {request : NewMonitor} {now : Timestamp} :
    Passage (.create template org request) .idle .now now (.dated now)
  | draft {template org agentId environmentId : String} {request : NewMonitor} {now : Timestamp}
    {id : Uuid} : request.truncate.check now = .ok () →
    Passage (.create template org request) (.dated now) .freshId id
      (.drafted (request.truncate.toMonitor id org agentId environmentId now))
  | create {template org : String} {request : NewMonitor} {m : Monitor} :
    Passage (.create template org request) (.drafted m) (.store (.createMonitor m)) (.ok ())
      (.created m)
  | taken {template org : String} {request : NewMonitor} {m : Monitor} {e : StoreError} :
    Passage (.create template org request) (.drafted m) (.store (.createMonitor m)) (.error e) .idle
  | begin {template org : String} {request : NewMonitor} {m : Monitor} {start stop : Timestamp}
    {id : Uuid} : m.traceStart = some start → m.traceEnd = some stop →
    Passage (.create template org request) (.created m) .freshId id
      (.submitting .initial ⟨template, m.org, m, ⟨start, stop⟩, m.evaluators⟩ id)
  | rollBack {template org : String} {request : NewMonitor} {m : Monitor} {start : Timestamp}
    {answer : Except StoreError Unit} : m.traceStart = some start →
    Passage (.create template org request) (.created m) (.store (.deleteMonitor m.id)) answer .idle
  -- Changing a monitor.
  | edit {edit : Edit} {m : Monitor} {now : Timestamp}
    {answer : Except StoreError Unit} : edit.check m = .ok () →
    Passage (.update m.org m.name edit) (.poised m now)
      (.store (.updateDefinition { edit.apply m with updatedAt := now })) answer .idle
  | stop {m : Monitor} {now : Timestamp} :
    Passage (.stop m.org m.name) (.poised m now) (.store (.suspend m.id)) (.ok true) (.stopped m)
  | lateStop {m : Monitor} {now : Timestamp} :
    Passage (.stop m.org m.name) (.poised m now) (.store (.suspend m.id)) (.ok false) .idle
  | start {m : Monitor} {now : Timestamp} :
    Passage (.start m.org m.name) (.poised m now) (.store (.resume m.id now)) (.ok true)
      (.started m)
  | lateStart {m : Monitor} {now : Timestamp} :
    Passage (.start m.org m.name) (.poised m now) (.store (.resume m.id now)) (.ok false) .idle
  -- Deleting a monitor.
  | enlist {m : Monitor} {runs : List Run} :
    Passage (.delete m.org m.name) (.loaded m) (.store (.listRuns m.id none)) (.ok runs)
      (.listed m runs)
  | remove {m : Monitor} {runs : List Run} {answer : Except StoreError Unit} :
    Passage (.delete m.org m.name) (.listed m runs) (.store (.deleteMonitor m.id)) answer
      (.cleaning m runs)
  | clean {m : Monitor} {r : Run} {rest : List Run}
    {answer : Except PlaneError Unit} :
    Passage (.delete m.org m.name) (.cleaning m (r :: rest))
      (.plane (.delete (.run m.org r.jobName))) answer (.cleaning m rest)
  -- Carrying out a run again.
  | choose {template org name : String} {m : Monitor} {r : Run} : r.monitorId = m.id →
    Passage (.rerun template org name r.id) (.loaded m) (.store (.findRun r.id)) (.ok (some r))
      (.chosen m r)
  | seek {template org name : String} {id : Uuid} {m : Monitor}
    {answer : Except StoreError (Option Run)} :
    Passage (.rerun template org name id) (.loaded m) (.store (.findRun id)) answer .idle
  | again {template org name : String} {run id : Uuid} {m : Monitor} {r : Run} :
    Passage (.rerun template org name run) (.chosen m r) .freshId id
      (.submitting .rerun ⟨template, m.org, m, r.window, r.evaluators⟩ id)

end TraceWatch
