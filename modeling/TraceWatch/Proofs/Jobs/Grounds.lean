import TraceWatch.Proofs.Protocol.Operations

/-!
# Grounds for calling about a job

A call that asks about a job, deletes it or reads its log names the job by a namespace and a name.
The caller has grounds for that if it has been told both: it has been shown a run with the name of
its job, and to which organization the monitor of the run belongs; or the job is its own, and the
workflow plane has given it the reference (`Grounds`). A program is grounded if it never calls about
a job without grounds in what it has been told so far (`Program.IsGrounded`); every activity is
(`Activity.isGrounded`).
-/

namespace TraceWatch

/-! ## Calls about jobs -/

/-- The job that a call of the workflow plane is about. A submission is about one that does not
exist yet. -/
def PlaneCall.job? : PlaneCall → Option JobRef
  | delete job | resource job => some job
  | logs space name => some (.run space name)
  | submit _ | agent _ _ _ | environment _ _ => none

/-- The job that a call is about. -/
def Call.job? : Call → Option JobRef
  | plane c => c.job?
  | _ => none

/-- A call, and how it has been answered. -/
structure Reply where
  call : Call
  answer : call.Answer

namespace Reply

/-- Which monitors a reply says to belong to which organizations. -/
def homes : Reply → List (Uuid × String)
  | ⟨.store (.findByName _ _), .ok (some m)⟩ => [(m.id, m.org)]
  | ⟨.store (.listMonitors _ _), .ok ms⟩ => ms.map fun m => (m.id, m.org)
  | ⟨.store .inFlight, .ok entries⟩ => entries.map fun entry => (entry.run.monitorId, entry.org)
  | _ => []

/-- The runs that a reply shows. -/
def runs : Reply → List Run
  | ⟨.store (.findRun _), .ok (some r)⟩ | ⟨.store (.latestRun _), .ok (some r)⟩ => [r]
  | ⟨.store (.listRuns _ _), .ok rs⟩ => rs
  | ⟨.store .inFlight, .ok entries⟩ => entries.map InFlightRun.run
  | _ => []

end Reply

/-! ## What one has been told -/

variable {log log' : List Reply} {id : Uuid} {org : String} {m : Monitor} {r : Run}

/-- One of the replies says that the monitor belongs to the organization. -/
def TellsHome (log : List Reply) (id : Uuid) (org : String) : Prop :=
  ∃ reply ∈ log, (id, org) ∈ reply.homes

/-- One of the replies shows the run. -/
def Shows (log : List Reply) (r : Run) : Prop := ∃ reply ∈ log, r ∈ reply.runs

/-- The replies are grounds for calling about the job. -/
inductive Grounds (log : List Reply) : JobRef → Prop
  /-- They show its run, and tell to which organization the monitor of the run belongs. -/
  | told {r : Run} {org : String} : Shows log r → TellsHome log r.monitorId org →
    Grounds log (.run org r.jobName)
  /-- One of them is the acceptance of the job. -/
  | own {spec : JobSpec} {job : JobRef} : ⟨.plane (.submit spec), .ok job⟩ ∈ log →
    Grounds log job

theorem TellsHome.mono (h : TellsHome log id org) (hlog : log ⊆ log') : TellsHome log' id org :=
  have ⟨reply, hreply, hhome⟩ := h
  ⟨reply, hlog hreply, hhome⟩

theorem Shows.mono (h : Shows log r) (hlog : log ⊆ log') : Shows log' r :=
  have ⟨reply, hreply, hr⟩ := h
  ⟨reply, hlog hreply, hr⟩

theorem Grounds.mono {job : JobRef} (h : Grounds log job) (hlog : log ⊆ log') :
    Grounds log' job := by
  cases h with
  | told hshows hhome => exact .told (hshows.mono hlog) (hhome.mono hlog)
  | own haccepted => exact .own (hlog haccepted)

/-- The last reply tells what it says. -/
theorem TellsHome.last {reply : Reply} (h : (id, org) ∈ reply.homes) :
    TellsHome (log ++ [reply]) id org :=
  ⟨reply, List.mem_append_right _ (.head _), h⟩

/-- The last reply shows its runs. -/
theorem Shows.last {reply : Reply} (h : r ∈ reply.runs) : Shows (log ++ [reply]) r :=
  ⟨reply, List.mem_append_right _ (.head _), h⟩

/-! ## Grounded programs -/

namespace Program

variable {α β : Type}

/-- After it has got some replies, the program calls about jobs only with grounds. -/
def IsGrounded : Program α → List Reply → Prop
  | done _, _ | halt, _ => True
  | call c next, log => (∀ job ∈ c.job?, Grounds log job) ∧
    ∀ answer, c.Possible answer → IsGrounded (next answer) (log ++ [⟨c, answer⟩])

/-- Who has been told more has no less grounds. -/
theorem IsGrounded.mono : ∀ {p : Program α} {log log' : List Reply}, p.IsGrounded log →
    log ⊆ log' → p.IsGrounded log'
  | done _, _, _, _, _ | halt, _, _, _, _ => trivial
  | call _ _, _, _, h, hlog => ⟨fun job hjob => (h.1 job hjob).mono hlog, fun answer hanswer =>
    (h.2 answer hanswer).mono (List.append_subset.2
      ⟨List.subset_append_of_subset_left _ hlog, List.subset_append_right _ _⟩)⟩

/-- A call that is about no job needs no grounds. -/
theorem IsGrounded.of_call {c : Call} {next : c.Answer → Program α} (hc : c.job? = none)
    (hnext : ∀ answer, c.Possible answer → (next answer).IsGrounded (log ++ [⟨c, answer⟩])) :
    (Program.call c next).IsGrounded log :=
  ⟨fun _ hjob => absurd (hc ▸ hjob) nofun, hnext⟩

/-- A call that is about no job, and of whose answer nothing is needed, asks for nothing. -/
theorem IsGrounded.of_step {c : Call} {next : c.Answer → Program α} (hc : c.job? = none)
    (hnext : ∀ answer, (next answer).IsGrounded log) : (Program.call c next).IsGrounded log :=
  .of_call hc fun answer _ => (hnext answer).mono (List.subset_append_left _ _)

/-- A sequence is grounded if both parts are. -/
theorem IsGrounded.bind {f : α → Program β} : ∀ {p : Program α} {log : List Reply},
    p.IsGrounded log → (∀ v, (f v).IsGrounded log) → (p.bind f).IsGrounded log
  | done v, _, _, hf => hf v
  | halt, _, _, _ => trivial
  | call _ _, _, h, hf => ⟨h.1, fun answer hanswer => (h.2 answer hanswer).bind fun v =>
    (hf v).mono (List.subset_append_left _ _)⟩

end Program

open Program

/-! ## Executions -/

theorem Assignment.isGrounded (x : Assignment) : x.operation.run.IsGrounded log := by
  rw [operation_run]
  refine .of_step rfl fun id => ?_
  split
  · trivial
  · refine .of_call rfl fun answer _ => ?_
    cases answer with
    | error e => trivial
    | ok job =>
      refine .of_step rfl fun now => .of_step rfl fun answer => ?_
      cases answer with
      | error e =>
        refine ⟨fun ref href => ?_, fun _ _ => trivial⟩
        obtain rfl : job = ref := Option.some.inj href
        exact .own (List.mem_append_right _ (.head _))
      | ok => exact .of_step rfl fun _ => trivial

/-! ## Reading -/

namespace Service

variable {name : String}

/-- Whoever is shown a run and its organization may ask about its job. -/
theorem refresh_isGrounded (hr : Shows log r) (horg : TellsHome log r.monitorId org) :
    (refresh org r).IsGrounded log := by
  unfold refresh
  split
  · trivial
  · refine ⟨fun job hjob => ?_, fun answer _ => ?_⟩
    · obtain rfl : JobRef.run org r.jobName = job := Option.some.inj hjob
      exact .told hr horg
    · cases answer with
      | error e => trivial
      | ok report => exact .of_step rfl fun _ => trivial

theorem refreshAll_isGrounded : ∀ {rs : List Run},
    (∀ r ∈ rs, Shows log r ∧ TellsHome log r.monitorId org) → (refreshAll org rs).IsGrounded log
  | [], _ => trivial
  | r :: rs, h => by
    obtain ⟨⟨hr, horg⟩, hrest⟩ := List.forall_mem_cons.1 h
    refine (refresh_isGrounded hr horg).bind fun first => ?_
    refine (refreshAll_isGrounded hrest).bind fun others => ?_
    trivial

theorem view_isGrounded (hm : TellsHome log m.id m.org) : (view m).run.IsGrounded log := by
  rw [view_run]
  refine .of_call rfl fun answer hanswer => ?_
  obtain ⟨_, s, rfl⟩ := hanswer.store
  dsimp only [StoreCall.perform]
  cases hlatest : s.latestRun m.id with
  | none => trivial
  | some r =>
    have howner : r.monitorId = m.id := (Store.of_latestRun hlatest).2
    refine (refresh_isGrounded (.last (.head _)) ?_).bind fun shown => ?_
    · rw [howner]
      exact hm.mono (List.subset_append_left _ _)
    · trivial

theorem viewAll_isGrounded : ∀ {ms : List Monitor}, (∀ m ∈ ms, TellsHome log m.id m.org) →
    (viewAll ms).run.IsGrounded log
  | [], _ => trivial
  | m :: rest, h => by
    obtain ⟨hm, hrest⟩ := List.forall_mem_cons.1 h
    rw [viewAll, Operation.run_bind]
    refine (view_isGrounded hm).bind fun first => ?_
    cases first with
    | error e => trivial
    | ok first =>
      rw [Operation.onward_ok, Operation.run_bind]
      refine (viewAll_isGrounded hrest).bind fun others => ?_
      cases others <;> trivial

/-- What is found by a name is of the organization that it has been looked for in. -/
theorem find_isGrounded {α : Type} {next : Except StoreError (Option Monitor) → Program α}
    (hmissing : (next (.ok none)).IsGrounded log)
    (hfound : ∀ m log', log ⊆ log' → m.org = org → TellsHome log' m.id m.org →
      (next (.ok (some m))).IsGrounded log') :
    (Program.call (.store (.findByName org name)) next).IsGrounded log := by
  refine .of_call rfl fun answer hanswer => ?_
  have hlog : log ⊆ log ++ [⟨.store (.findByName org name), answer⟩] := List.subset_append_left _ _
  rcases hanswer.findByName with rfl | ⟨m, rfl, horg, -⟩
  · exact hmissing.mono hlog
  · exact hfound m _ hlog horg (.last (.head _))

theorem loadMonitor_isGrounded : (loadMonitor org name).run.IsGrounded log := by
  rw [loadMonitor_run]
  exact find_isGrounded trivial fun _ _ _ _ _ => trivial

/-- An operation on a monitor with a name is grounded if it is so once it has been told to which
organization the monitor belongs. -/
theorem loadMonitor_bind_isGrounded {α : Type} {f : Monitor → Operation α}
    (hf : ∀ m log', log ⊆ log' → m.org = org → TellsHome log' m.id m.org →
      (f m).run.IsGrounded log') : (loadMonitor org name >>= f).run.IsGrounded log := by
  rw [loadMonitor_bind]
  exact find_isGrounded trivial hf

theorem get_isGrounded : (get org name).run.IsGrounded log :=
  loadMonitor_bind_isGrounded fun _ _ _ _ hhome => view_isGrounded hhome

theorem list_isGrounded (filter : MonitorFilter) : (list org filter).run.IsGrounded log := by
  refine .of_call rfl fun answer hanswer => ?_
  obtain ⟨_, s, rfl⟩ := hanswer.store
  have hhome : ∀ m ∈ s.listMonitors org filter,
      TellsHome (log ++ [⟨.store (.listMonitors org filter), .ok (s.listMonitors org filter)⟩])
        m.id m.org := fun m hm => .last (List.mem_map_of_mem hm)
  exact viewAll_isGrounded hhome

/-- What is listed of the runs of a monitor may be asked about in its organization. -/
theorem listRuns_isGrounded {α : Type} {limit : Option Nat}
    {next : Except StoreError (List Run) → Program α} (hhome : TellsHome log m.id m.org)
    (hnext : ∀ rs log', log ⊆ log' → (∀ r ∈ rs, Shows log' r ∧ TellsHome log' r.monitorId m.org) →
      (next (.ok rs)).IsGrounded log') :
    (Program.call (.store (.listRuns m.id limit)) next).IsGrounded log := by
  refine .of_call rfl fun answer hanswer => ?_
  obtain ⟨_, s, rfl⟩ := hanswer.store
  refine hnext (s.listRuns m.id limit) _ (List.subset_append_left _ _) fun r hr => ⟨.last hr, ?_⟩
  rw [(Store.of_mem_listRuns hr).2]
  exact hhome.mono (List.subset_append_left _ _)

theorem runs_isGrounded (limit : Option Nat) : (runs org name limit).run.IsGrounded log := by
  refine loadMonitor_bind_isGrounded fun m log' _ horg hhome => ?_
  subst horg
  refine listRuns_isGrounded hhome fun rs log'' _ hrs => ?_
  refine (refreshAll_isGrounded hrs).bind fun shown => ?_
  trivial

/-- An operation on a run of a monitor is grounded if it is so once it has been shown the run. -/
theorem loadRun_bind_isGrounded {α : Type} {f : Run → Operation α}
    (hf : ∀ r log', log ⊆ log' → r.monitorId = m.id → Shows log' r →
      (f r).run.IsGrounded log') : (loadRun m id >>= f).run.IsGrounded log := by
  rw [loadRun_bind]
  refine .of_call rfl fun answer hanswer => ?_
  rcases hanswer.findRun with rfl | ⟨r, rfl, -⟩
  · trivial
  · dsimp only
    split
    · next howner => exact hf r _ (List.subset_append_left _ _) howner (.last (.head _))
    · trivial

theorem logs_isGrounded : (logs org name id).run.IsGrounded log := by
  refine loadMonitor_bind_isGrounded fun m log₁ _ horg hhome => ?_
  refine loadRun_bind_isGrounded fun r log₂ hlog howner hr => ?_
  refine ⟨fun job hjob => ?_, fun _ _ => trivial⟩
  obtain rfl : JobRef.run org r.jobName = job := Option.some.inj hjob
  refine .told hr ?_
  rw [howner, ← horg]
  exact hhome.mono hlog

/-! ## Changing monitors -/

theorem deleteJobs_isGrounded : ∀ {rs : List Run},
    (∀ r ∈ rs, Shows log r ∧ TellsHome log r.monitorId org) → (deleteJobs org rs).IsGrounded log
  | [], _ => trivial
  | r :: rs, h => by
    obtain ⟨⟨hr, horg⟩, hrest⟩ := List.forall_mem_cons.1 h
    rw [deleteJobs_cons]
    refine ⟨fun job hjob => ?_, fun answer _ => ?_⟩
    · obtain rfl : JobRef.run org r.jobName = job := Option.some.inj hjob
      exact .told hr horg
    · exact (deleteJobs_isGrounded hrest).mono (List.subset_append_left _ _)

theorem delete_isGrounded : (delete org name).run.IsGrounded log := by
  rw [delete_run]
  refine find_isGrounded trivial fun m log' _ horg hhome => ?_
  subst horg
  refine listRuns_isGrounded hhome fun rs log'' _ hrs => .of_step rfl fun answer => ?_
  cases answer with
  | error e => trivial
  | ok =>
    refine (deleteJobs_isGrounded hrs).bind fun _ => ?_
    trivial

/-- What an operation that has come too late does calls about no job. -/
theorem late_isGrounded {α : Type} (e : MonitorError) :
    ((loadMonitor org name).run.bind
      (Operation.onward fun _ => (throw e : Operation α))).IsGrounded log := by
  refine loadMonitor_isGrounded.bind fun found => ?_
  cases found <;> trivial

theorem stop_isGrounded : (stop org name).run.IsGrounded log := by
  rw [stop_run]
  refine find_isGrounded trivial fun m log' _ _ hhome => .of_step rfl fun now => ?_
  cases hstop : m.suspend now with
  | error fault => trivial
  | ok stopped =>
    refine .of_step rfl fun answer => ?_
    rcases answer with e | _ | _
    · trivial
    · exact late_isGrounded _
    · obtain rfl := suspend_eq hstop
      exact view_isGrounded hhome

theorem start_isGrounded : (start org name).run.IsGrounded log := by
  rw [start_run]
  refine find_isGrounded trivial fun m log' _ _ hhome => .of_step rfl fun now => ?_
  cases hstart : m.resume now with
  | error fault => trivial
  | ok started =>
    refine .of_step rfl fun answer => ?_
    rcases answer with e | _ | _
    · trivial
    · exact late_isGrounded _
    · obtain rfl := resume_eq hstart
      exact view_isGrounded hhome

theorem update_isGrounded (edit : Edit) : (update org name edit).run.IsGrounded log := by
  rw [update_run]
  refine find_isGrounded trivial fun m log' _ _ hhome => ?_
  dsimp only
  split
  · trivial
  · refine .of_step rfl fun now => .of_step rfl fun answer => ?_
    cases answer with
    | error e => trivial
    | ok => exact get_isGrounded

theorem rerun_isGrounded (template : String) : (rerun template org name id).run.IsGrounded log :=
  loadMonitor_bind_isGrounded fun _ _ _ _ _ =>
    loadRun_bind_isGrounded fun r _ _ _ _ => Assignment.isGrounded ⟨_, _, _, r.window, r.evaluators⟩

theorem create_isGrounded (template : String) (request : NewMonitor) :
    (create template org request).run.IsGrounded log := by
  rw [create_run]
  refine .of_step rfl fun now => ?_
  dsimp only
  split
  · trivial
  · refine .of_step rfl fun answer => ?_
    rcases answer with e | _ | taken
    · trivial
    · refine .of_step rfl fun answer => ?_
      cases answer with
      | error e => trivial
      | ok agentId =>
        refine .of_step rfl fun answer => ?_
        cases answer with
        | error e => trivial
        | ok environmentId =>
          refine .of_step rfl fun id => .of_step rfl fun answer => ?_
          cases answer with
          | error e => trivial
          | ok =>
            dsimp only
            split
            · refine (Assignment.isGrounded _).bind fun result => ?_
              cases result with
              | error e => exact .of_step rfl fun _ => trivial
              | ok r => trivial
            · trivial
    · trivial

/-! ## A cycle -/

theorem trigger_isGrounded (template : String) (now : Timestamp) :
    (trigger template m now).run.IsGrounded log := by
  rw [trigger_run]
  split
  · trivial
  · trivial
  · refine (Assignment.isGrounded _).bind fun result => ?_
    cases result with
    | error e => trivial
    | ok r => exact .of_step rfl fun _ => .of_step rfl fun _ => trivial

theorem triggerAll_isGrounded (template : String) (now : Timestamp) : ∀ (due : List Monitor)
    (tally : Tally), (triggerAll template now due tally).IsGrounded log
  | [], _ => trivial
  | m :: rest, tally => by
    rw [triggerAll_cons]
    refine .of_step rfl fun told => ?_
    cases told with
    | true => trivial
    | false =>
      refine (trigger_isGrounded template now).bind fun result => ?_
      cases result with
      | error e => exact .of_step rfl fun _ => triggerAll_isGrounded template now rest _
      | ok r => exact triggerAll_isGrounded template now rest _

theorem reconcile_isGrounded {entry : InFlightRun} (hr : Shows log entry.run)
    (horg : TellsHome log entry.run.monitorId entry.org) :
    (reconcile entry).run.IsGrounded log := by
  rw [reconcile_run]
  refine ⟨fun job hjob => ?_, fun answer _ => ?_⟩
  · obtain rfl : JobRef.run entry.org entry.run.jobName = job := Option.some.inj hjob
    exact .told hr horg
  · cases answer with
    | error e => trivial
    | ok report =>
      dsimp only
      split
      · trivial
      · refine .of_step rfl fun now => .of_step rfl fun answer => ?_
        cases answer with
        | error e => trivial
        | ok => exact .of_step rfl fun _ => trivial

theorem reconcileAll_isGrounded : ∀ {entries : List InFlightRun} (tally : Tally),
    (∀ entry ∈ entries, Shows log entry.run ∧ TellsHome log entry.run.monitorId entry.org) →
      (reconcileAll entries tally).IsGrounded log
  | [], _, _ => trivial
  | entry :: rest, tally, h => by
    obtain ⟨⟨hr, horg⟩, hrest⟩ := List.forall_mem_cons.1 h
    rw [reconcileAll_cons]
    refine .of_step rfl fun told => ?_
    cases told with
    | true => trivial
    | false =>
      refine (reconcile_isGrounded hr horg).bind fun result => ?_
      split <;> exact reconcileAll_isGrounded _ hrest

theorem lockedCycle_isGrounded (template : String) :
    (lockedCycle template).run.IsGrounded log := by
  rw [lockedCycle_run]
  refine .of_step rfl fun now => .of_step rfl fun answer => ?_
  cases answer with
  | error e => trivial
  | ok due =>
    refine (triggerAll_isGrounded template now due _).bind fun ⟨tally, finished⟩ => ?_
    cases finished with
    | false => trivial
    | true =>
      refine .of_call rfl fun answer _ => ?_
      cases answer with
      | error e => trivial
      | ok entries =>
        refine (reconcileAll_isGrounded tally fun entry hentry => ⟨.last ?_, .last ?_⟩).bind
          fun tally => ?_
        · exact List.mem_map_of_mem hentry
        · exact List.mem_map_of_mem (f := fun entry : InFlightRun =>
            (entry.run.monitorId, entry.org)) hentry
        · trivial

theorem cycle_isGrounded (template : String) : (cycle template).run.IsGrounded log := by
  rw [cycle_run]
  refine .of_step rfl fun answer => ?_
  rcases answer with e | _ | _
  · trivial
  · exact .of_step rfl fun _ => trivial
  · refine (lockedCycle_isGrounded template).bind fun result => .of_step rfl fun _ => ?_
    cases result <;> exact .of_step rfl fun _ => trivial

end Service

/-! ## All of them -/

/-- Every activity calls about jobs only with grounds. -/
theorem Activity.isGrounded (a : Activity) : a.operation.run.IsGrounded [] := by
  cases a with
  | cycle template => exact Service.cycle_isGrounded template
  | create template org request => exact Service.create_isGrounded template request
  | get org name => exact Service.get_isGrounded
  | list org filter => exact Service.list_isGrounded filter
  | update org name edit => exact Service.update_isGrounded edit
  | delete org name => exact Service.delete_isGrounded
  | stop org name => exact Service.stop_isGrounded
  | start org name => exact Service.start_isGrounded
  | runs org name limit => exact Service.runs_isGrounded limit
  | rerun template org name id => exact Service.rerun_isGrounded template
  | logs org name id => exact Service.logs_isGrounded

end TraceWatch
