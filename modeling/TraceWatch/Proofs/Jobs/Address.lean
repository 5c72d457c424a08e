import TraceWatch.Plane.Reply
import TraceWatch.Proofs.Jobs.Grounds
import TraceWatch.Proofs.Runs.WellFormed

/-!
# Jobs are addressed where they were submitted

Each task of a site goes by what it has been told (`repliesTo`), and its calls about jobs have
grounds in that (`Site.History.isGrounded`). What it has been told is true: the runs it has been
shown were recorded, and the organizations are those in which the jobs of the monitors' runs are
submitted, under names that the monitors' names make (`Scene.Registers`). So whatever job a call is
about has been submitted and accepted before, in that namespace and under that name:
`Site.jobs_addressed_as_submitted`.
-/

namespace TraceWatch

/-! ## What a task has been told -/

/-- The reply that a task gets with an event. -/
def Event.replyTo? (k : Nat) : Event → Option Reply
  | call i _ c answer => if i = k then some ⟨c, answer⟩ else none
  | _ => none

/-- What a task has been told so far. -/
def repliesTo (k : Nat) (es : List Event) : List Reply := es.filterMap (Event.replyTo? k)

/-- The job that an event is a call about. -/
def Event.job? : Event → Option JobRef
  | call _ _ c _ => c.job?
  | _ => none

section

variable {k : Nat} {es : List Event} {e : Event} {reply : Reply}

theorem repliesTo_concat : repliesTo k (es ++ [e]) = repliesTo k es ++ (e.replyTo? k).toList := by
  rw [repliesTo, List.filterMap_append, repliesTo]
  cases h : e.replyTo? k <;> simp [h]

theorem Event.replyTo?_eq_some (h : e.replyTo? k = some reply) :
    ∃ a, e = .call k a reply.call reply.answer := by
  cases e with
  | call i a c answer =>
    rw [replyTo?] at h
    split at h
    · next hik =>
      cases h
      exact ⟨a, by rw [hik]⟩
    · cases h
  | _ => cases h

theorem mem_repliesTo (h : reply ∈ repliesTo k es) :
    ∃ a, .call k a reply.call reply.answer ∈ es := by
  obtain ⟨e, he, hreply⟩ := List.mem_filterMap.1 h
  obtain ⟨a, rfl⟩ := Event.replyTo?_eq_some hreply
  exact ⟨a, he⟩

/-- What is told about organizations after one event more was told before, or has just been told. -/
theorem TellsHome.of_concat {id : Uuid} {org : String}
    (h : TellsHome (repliesTo k (es ++ [e])) id org) :
    TellsHome (repliesTo k es) id org ∨
      ∃ a c answer, e = .call k a c answer ∧ (id, org) ∈ Reply.homes ⟨c, answer⟩ := by
  obtain ⟨reply, hreply, hhome⟩ := h
  rw [repliesTo_concat, List.mem_append, Option.mem_toList] at hreply
  rcases hreply with hbefore | hlast
  · exact .inl ⟨reply, hbefore, hhome⟩
  · obtain ⟨a, rfl⟩ := Event.replyTo?_eq_some hlast
    exact .inr ⟨a, _, _, rfl, hhome⟩

end

/-! ## What is told is so -/

namespace Commons.Answers

variable {w w' : Commons} {i : Nat} {c : Call} {answer : c.Answer}

/-- An organization that a monitor is said to belong to is that of a stored monitor. -/
theorem mem_of_homes (h : w.Answers i c answer w') {id : Uuid} {org : String}
    (hhome : (id, org) ∈ Reply.homes ⟨c, answer⟩) :
    ∃ m ∈ w.store.monitors, m.id = id ∧ m.org = org := by
  unfold Reply.homes at hhome
  split at hhome
  · next org' name m heq =>
    cases heq
    cases List.mem_singleton.1 hhome
    exact ⟨m, h.mem_of_findByName, rfl, rfl⟩
  · next org' filter ms heq =>
    cases heq
    obtain ⟨m, hm, hpair⟩ := List.mem_map.1 hhome
    cases hpair
    have hms : ms = w.store.listMonitors org' filter := Except.ok.inj h.1
    rw [hms, Store.listMonitors, List.mem_mergeSort] at hm
    exact ⟨m, (List.mem_filter.1 hm).1, rfl, rfl⟩
  · next entries heq =>
    cases heq
    obtain ⟨entry, hentry, hpair⟩ := List.mem_map.1 hhome
    cases hpair
    exact (h.mem_of_inFlight hentry).2.2
  · cases hhome

/-- A run that is shown is stored. -/
theorem mem_of_runs (h : w.Answers i c answer w') {r : Run} (hr : r ∈ Reply.runs ⟨c, answer⟩) :
    r ∈ w.store.runs := by
  unfold Reply.runs at hr
  split at hr
  · next id r' heq =>
    cases heq
    obtain rfl := List.mem_singleton.1 hr
    exact List.mem_of_find?_eq_some (Except.ok.inj h.1).symm
  · next id r' heq =>
    cases heq
    obtain rfl := List.mem_singleton.1 hr
    exact (Store.of_latestRun (Except.ok.inj h.1).symm).1
  · next id limit rs heq =>
    cases heq
    have hrs : rs = w.store.listRuns id limit := Except.ok.inj h.1
    exact (Store.of_mem_listRuns (hrs ▸ hr)).1
  · next entries heq =>
    cases heq
    obtain ⟨entry, hentry, rfl⟩ := List.mem_map.1 hr
    exact (h.mem_of_inFlight hentry).1
  · cases hr

end Commons.Answers

namespace Scene

variable {w : Commons} {s s' : Scene} {es : List Event} {e : Event} {k : Nat}
  {home : Uuid → String × String}

/-- A run that a task has been shown had been recorded. -/
theorem History.recorded_of_shown (hstore : w.store = .empty) (hholder : w.holder = none)
    (h : (ofCommons w).History es s) {r : Run} (hr : Shows (repliesTo k es) r) :
    ∃ r₀, HasRecorded r₀ es ∧ r.origin = r₀.origin := by
  obtain ⟨reply, hreply, hr⟩ := hr
  obtain ⟨a, he⟩ := mem_repliesTo hreply
  exact h.recorded_of_read hstore hholder he fun v v' hv => hv.mem_of_runs hr

/-! ## The register -/

/-- The job has been submitted for the run and its monitor: in the organization that the identifier
of the monitor stands for, and under a name made of the monitor's own. -/
structure IsSubmittedFor (home : Uuid → String × String) (id run : Uuid) (spec : JobSpec) :
    Prop where
  monitorId : spec.parameters.monitorId = id.render
  runId : spec.parameters.runId = run.render
  space : spec.space = (home id).1
  monitorName : spec.parameters.monitorName = (home id).2
  name : spec.name = jobName (home id).2 run
  isName : Rules.checkName (home id).2 = .ok ()

/-- Everything said and done so far agrees with what identifiers stand for. -/
structure Registers (home : Uuid → String × String) (es : List Event) (s : Scene) : Prop where
  identities : Identities home s
  told : ∀ k id org, TellsHome (repliesTo k es) id org →
    id ∈ s.commons.issued ∧ (home id).1 = org
  submitted : ∀ k a spec answer, .call k a (.plane (.submit spec)) answer ∈ es →
    ∃ id ∈ s.commons.issued, ∃ run, IsSubmittedFor home id run spec

/-- What has been submitted stays so while the monitor stands for the same. -/
theorem IsSubmittedFor.congr {home' : Uuid → String × String} {id run : Uuid} {spec : JobSpec}
    (h : IsSubmittedFor home id run spec) (hhome : home' id = home id) :
    IsSubmittedFor home' id run spec where
  monitorId := h.monitorId
  runId := h.runId
  space := hhome ▸ h.space
  monitorName := hhome ▸ h.monitorName
  name := hhome ▸ h.name
  isName := hhome ▸ h.isName

theorem Registers.step (h : Registers home es s) (hs : s.Reachable)
    (hstep : Step s e s') : ∃ home', Registers home' (es ++ [e]) s' := by
  obtain ⟨home', hid', hhome⟩ := h.identities.step hstep
  -- what a known monitor is registered under stays so
  have hbelongs : ∀ m : Monitor, m.Belongs home s.commons.issued →
      m.id ∈ s'.commons.issued ∧ home' m.id = (m.org, m.name) :=
    fun m hm => ⟨hstep.issued_mono hm.1, (hhome _ hm.1).trans hm.2⟩
  refine ⟨home', hid', fun k id org htold => ?_, fun k a spec answer hmem => ?_⟩
  · rcases htold.of_concat with hbefore | ⟨a, c, answer, rfl, hlast⟩
    · obtain ⟨hissued, horg⟩ := h.told k id org hbefore
      exact ⟨hstep.issued_mono hissued, by rw [hhome id hissued, horg]⟩
    · cases hstep with
      | call _ hw =>
        obtain ⟨m, hm, rfl, rfl⟩ := hw.mem_of_homes hlast
        obtain ⟨hissued, heq⟩ := hbelongs m (h.identities.stored m hm)
        exact ⟨hissued, congrArg Prod.fst heq⟩
  · rcases List.mem_append.1 hmem with hbefore | hlast
    · obtain ⟨id, hissued, run, hspec⟩ := h.submitted k a spec answer hbefore
      exact ⟨id, hstep.issued_mono hissued, run, hspec.congr (hhome id hissued)⟩
    · obtain rfl := List.mem_singleton.1 hlast
      obtain ⟨purpose, x, run, hk, rfl⟩ := hstep.exists_submitting
      have hx : x.monitor ∈ (s.phase k).monitors := by
        rw [hk]
        exact .head _
      have hhomed : (s.phase k).Homed := hs.homed k
      rw [hk] at hhomed
      obtain ⟨hissued, heq⟩ := hbelongs _ (h.identities.known k _ hx)
      have hname : Rules.checkName x.monitor.name = .ok () :=
        (hs.isWellFormed _ (.inr ⟨k, hx⟩)).name
      refine ⟨x.monitor.id, hissued, run, rfl, rfl, ?_, ?_, ?_, ?_⟩
      · rw [heq]
        exact hhomed
      · rw [heq]
        rfl
      · rw [heq]
        rfl
      · rw [heq]
        exact hname

/-- Whatever happens after an empty store, there is a register that everything agrees with. -/
theorem History.exists_registers (hstore : w.store = .empty) (hholder : w.holder = none)
    (h : (ofCommons w).History es s) : ∃ home, Registers home es s := by
  induction h with
  | nil =>
    obtain ⟨home, hid⟩ := Reachable.identities ⟨w, [], hstore, hholder, .nil⟩
    refine ⟨home, hid, fun k id org htold => ?_, fun k a spec answer hmem => ?_⟩
    · obtain ⟨_, hreply, -⟩ := htold
      cases hreply
    · cases hmem
  | snoc hbefore hstep ih =>
    obtain ⟨home, hregisters⟩ := ih
    exact hregisters.step ⟨w, _, hstore, hholder, hbefore⟩ hstep

/-- A job that carries a run has been submitted for it. -/
theorem Registers.submittedFor (h : Registers home es s) {spec : JobSpec} {r : Run}
    (hcarries : spec.Carries r) (hsubmitted : SubmittedAs r.id spec es) :
    IsSubmittedFor home r.monitorId r.id spec := by
  obtain ⟨_, e, he, haccepted⟩ := hsubmitted.accepted
  obtain ⟨i, a, rfl⟩ := Event.of_accepted? haccepted
  obtain ⟨id, -, run, hspec⟩ := h.submitted i a spec _ he
  obtain rfl : id = r.monitorId :=
    Uuid.render_injective (hspec.monitorId.symm.trans hcarries.monitorId)
  obtain rfl : run = r.id := Uuid.render_injective (hspec.runId.symm.trans hcarries.runId)
  exact hspec

/-- The job of a run that a task has been shown was submitted in the organization to which the task
has been told that the monitor of the run belongs. -/
theorem History.submission_of_grounds (hstore : w.store = .empty) (hholder : w.holder = none)
    (h : (ofCommons w).History es s) {r : Run} {org : String} (hr : Shows (repliesTo k es) r)
    (horg : TellsHome (repliesTo k es) r.monitorId org) :
    ∃ spec, SubmittedAs r.id spec es ∧ spec.Carries r ∧ spec.space = org := by
  obtain ⟨r₀, hr₀, horigin⟩ := h.recorded_of_shown hstore hholder hr
  obtain ⟨spec, hcarries, hsubmission⟩ := (h.accords hstore hholder).submission hr₀ horigin
  obtain ⟨home, hregisters⟩ := h.exists_registers hstore hholder
  have hspace := (hregisters.submittedFor hcarries hsubmission).space
  exact ⟨spec, hsubmission, hcarries, hspace.trans (hregisters.told k _ org horg).2⟩

end Scene

/-! ## Tasks go by what they have been told -/

namespace Site

variable {s₀ s s' : Site} {es : List Event} {e : Event}

/-- What is left of a task calls about jobs only with grounds in what the task has been told. -/
theorem History.isGrounded (hs : s₀.tasks = []) (h : s₀.History es s) : ∀ (k : Nat) (task : Task),
    s.tasks[k]? = some task → task.rest.IsGrounded (repliesTo k es) := by
  induction h with
  | nil =>
    intro k task htask
    rw [hs] at htask
    cases htask
  | @snoc es e s₁ s₂ _ hstep ih =>
    have later (k : Nat) (task : Task) (htask : s₁.tasks[k]? = some task) :
        task.rest.IsGrounded (repliesTo k (es ++ [e])) := by
      rw [repliesTo_concat]
      exact (ih k task htask).mono (List.subset_append_left _ _)
    intro k task htask
    cases hstep with
    | tick | drops => exact later k task htask
    | begins w tasks a =>
      rcases of_getElem?_concat htask with htask | ⟨rfl, rfl⟩
      · exact later k task htask
      · exact a.isGrounded.mono (List.nil_subset _)
    | @call w w' tasks i a c next answer hold hw =>
      by_cases hik : i = k
      · subst hik
        rw [List.getElem?_set_self (List.getElem?_eq_some_iff.1 hold).1] at htask
        cases htask
        rw [repliesTo_concat, Event.replyTo?, if_pos rfl]
        exact (ih i _ hold).2 answer ⟨w, i, w', hw⟩
      · rw [List.getElem?_set_ne hik] at htask
        exact later k task htask

/-- Whoever calls about a job has grounds for it. -/
theorem Step.grounds (hs : s₀.tasks = []) (h : s₀.History es s) (hstep : s.Step e s') {job : JobRef}
    (hjob : e.job? = some job) : ∃ k, e.caller = some k ∧ Grounds (repliesTo k es) job := by
  cases hstep with
  | @call w w' tasks i a c next answer hold hw =>
    exact ⟨i, rfl, (h.isGrounded hs i _ hold).1 job hjob⟩
  | _ => cases hjob

end Site

/-! ## The statement -/

/-- A client that submits a job refers to it by its namespace and its name. -/
theorem PlaneClient.perform_submit {client : PlaneClient} {network : PlaneRequest → PlaneReply}
    {spec : JobSpec} {job : JobRef} (h : client.perform network (.submit spec) = .ok job) :
    job = .run spec.space spec.name := by
  unfold perform at h
  split at h
  · cases h
  · unfold PlaneCall.interpret at h
    split at h
    · cases h
    · split_ifs at h
      exact (Except.ok.inj h).symm

/-- Submissions go through a client. What the network makes of its requests is left open, and it may
change from one submission to the next. -/
def SubmitsByClient (es : List Event) : Prop :=
  ∀ k a spec answer, .call k a (.plane (.submit spec)) answer ∈ es →
    ∃ (client : PlaneClient) (network : PlaneRequest → PlaneReply),
      answer = client.perform network (.submit spec)

/-- The job that has been submitted is one for a task to call about: it has been accepted under its
namespace and its name, and it is a job that the task has submitted itself or the one job of a run
that the task has been shown. -/
def IsJobFor (k : Nat) (spec : JobSpec) (es : List Event) : Prop :=
  HasAccepted spec (.run spec.space spec.name) es ∧
    ((∃ a, .call k a (.plane (.submit spec)) (.ok (.run spec.space spec.name)) ∈ es) ∨
      ∃ r, Shows (repliesTo k es) r ∧ spec.Carries r ∧ SubmittedAs r.id spec es)

/-- A job that a task has grounds for is one for it to call about, if it has been submitted by a
client. -/
theorem Scene.History.isJobFor_of_grounds {w : Commons} {g : Scene} {es : List Event}
    (hg : (ofCommons w).History es g) (hstore : w.store = .empty) (hholder : w.holder = none)
    (hclient : SubmitsByClient es) {k : Nat} {job : JobRef} (h : Grounds (repliesTo k es) job) :
    ∃ spec, job = .run spec.space spec.name ∧ IsJobFor k spec es := by
  cases h with
  | @told r org hr horg =>
    obtain ⟨spec, hsubmission, hcarries, rfl⟩ := hg.submission_of_grounds hstore hholder hr horg
    obtain ⟨ref, e', he', haccepted⟩ := hsubmission.accepted
    obtain ⟨i, a, rfl⟩ := Event.of_accepted? haccepted
    obtain ⟨client, network, hanswer⟩ := hclient i a spec _ he'
    obtain rfl := PlaneClient.perform_submit hanswer.symm
    exact ⟨spec, congrArg (JobRef.run _) hcarries.name.symm, ⟨_, he', haccepted⟩,
      .inr ⟨r, hr, hcarries, hsubmission⟩⟩
  | @own spec _ hreply =>
    obtain ⟨a, he'⟩ := mem_repliesTo hreply
    obtain ⟨client, network, hanswer⟩ := hclient k a spec _ he'
    obtain rfl := PlaneClient.perform_submit hanswer.symm
    exact ⟨spec, rfl, ⟨_, he', rfl⟩, .inl ⟨a, he'⟩⟩

namespace Site

variable {s₀ s s' : Site} {es : List Event} {e : Event} {job : JobRef}

/-- In every history that begins with an empty store, whatever the workflow plane does and however
tasks are interleaved: a job that is asked about, deleted, or whose log is read has been accepted
before, and it is addressed as it was submitted. -/
theorem jobs_addressed_as_submitted (hnew : s₀.IsNew) (h : s₀.History es s)
    (hclient : SubmitsByClient es) (hstep : s.Step e s') (hjob : e.job? = some job) :
    ∃ k spec, e.caller = some k ∧ job = .run spec.space spec.name ∧ IsJobFor k spec es := by
  obtain ⟨g, hg, -⟩ := h.exists_scene hnew.tasks
  obtain ⟨k, hk, hgrounds⟩ := hstep.grounds hnew.tasks h hjob
  obtain ⟨spec, hspec, hfor⟩ := hg.isJobFor_of_grounds hnew.store hnew.holder hclient hgrounds
  exact ⟨k, spec, hk, hspec, hfor⟩

/-- A client of a plane at some address. -/
def someClient : PlaneClient := ⟨"http://plane", none⟩

/-- Under a schedule jobs are submitted as by a client, if they are accepted as a client refers to
them and its requests can be made. -/
theorem submitsByClient_after {env : Surroundings} {turns : List Turn}
    (henv : ∀ spec, env.plane (.submit spec) = .ok (.run spec.space spec.name))
    (hbuilt : ∀ e ∈ (s.after env turns).1, ∀ accepted ∈ e.accepted?,
      (someClient.request (.submit accepted.1)).toBool = true) :
    SubmitsByClient (s.after env turns).1 := by
  intro k a spec answer hmem
  obtain rfl : answer = .ok (.run spec.space spec.name) :=
    (plane_of_after hmem).trans (henv spec)
  have hspec := hbuilt _ hmem (spec, _) rfl
  -- a plane that answers every request with an empty document
  refine ⟨someClient, fun _ => .answered 200 "\x7b\x7d", ?_⟩
  rw [PlaneClient.perform]
  cases hrequest : someClient.request (.submit spec) with
  | error obstacle =>
    rw [hrequest] at hspec
    cases hspec
  | ok request => rfl

/-- A past monitor is created, and somebody is about to read the log of its run. -/
def readingLog : List Turn :=
  Turn.alone (.create "evaluation" "acme" (.tone "care" (some ⟨⟨0, 0⟩, ⟨3600, 0⟩⟩))) 0 11 ++
    Turn.alone (.logs "acme" "care" (Surroundings.accepting.id 1)) 1 2

/-- Of the job of a run whose log is read. -/
theorem jobs_addressed_as_submitted_readingLog :
    let s₀ := holding [] ⟨7200, 0⟩
    let s := s₀.after .accepting readingLog
    ∃ e s', s₀.IsNew ∧ s₀.History s.1 s.2 ∧ SubmitsByClient s.1 ∧ s.2.Step e s' ∧
      e.job? = some (.run "acme" "care-00000001") ∧
      ∃ k spec, e.caller = some k ∧ JobRef.run "acme" "care-00000001" = .run spec.space spec.name ∧
        IsJobFor k spec s.1 := by
  intro s₀ s
  have hnew : s₀.IsNew := ⟨rfl, rfl, rfl⟩
  have h : s₀.History s.1 s.2 := history_after (by decide +kernel)
  have hclient : SubmitsByClient s.1 := submitsByClient_after (fun _ => rfl) (by decide +kernel)
  have hnext : ((s.2.turn? .accepting (.task 1)).bind fun (e, _) => e.job?) =
      some (.run "acme" "care-00000001") := by decide +kernel
  obtain ⟨⟨e, s'⟩, hturn, hjob⟩ := Option.bind_eq_some_iff.1 hnext
  have hstep : s.2.Step e s' := step_of_turn? hturn
  exact ⟨e, s', hnew, h, hclient, hstep, hjob,
    jobs_addressed_as_submitted hnew h hclient hstep hjob⟩

end Site

end TraceWatch
