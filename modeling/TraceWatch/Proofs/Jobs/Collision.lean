import TraceWatch.Proofs.Jobs.Address
import TraceWatch.Proofs.Jobs.Labels

/-!
# When two runs have the same job

The name of a job is made of the name of the monitor and the first eight digits of the identifier of
the run. The rules for names leave nothing of a monitor's name to be cut off, so both parts can be
read off the name of the job (`jobName_inj`). Hence two stored runs of an organization have the same
job exactly if they are runs of one monitor and their identifiers begin with the same eight digits,
and what is done about the job of one run then reaches the other (`Site.jobs_told_apart`). It can
happen that they do: `Site.job_shared`.
-/

namespace TraceWatch

/-! ## Stored runs -/

namespace Scene

variable {w : Commons} {s : Scene} {es : List Event}

/-- The job of a stored run is named after its monitor and its identifier. -/
theorem History.jobName_eq (hstore : w.store = .empty) (hholder : w.holder = none)
    (h : (ofCommons w).History es s) {r : Run} {m : Monitor} (hr : r ∈ s.commons.store.runs)
    (hm : m ∈ s.commons.store.monitors) (hid : m.id = r.monitorId) :
    r.jobName = jobName m.name r.id := by
  obtain ⟨home, hregisters⟩ := h.exists_registers hstore hholder
  obtain ⟨r₀, hr₀, horigin⟩ := (h.accords hstore hholder).recorded r hr
  obtain ⟨spec, hcarries, hsubmission⟩ := (h.accords hstore hholder).submission hr₀ horigin
  have hname := (hregisters.submittedFor hcarries hsubmission).name
  rw [hcarries.name, ← hid, (hregisters.identities.stored m hm).2] at hname
  exact hname

end Scene

/-! ## The statement -/

/-- When two runs have the same job, and what comes of it. -/
structure Site.TellsJobsApart (s : Site) (es : List Event) : Prop where
  /-- Two stored runs of an organization have the same job if and only if they are runs of one
  monitor and the first eight digits of their identifiers are the same. -/
  stored : ∀ r ∈ s.commons.store.runs, ∀ r' ∈ s.commons.store.runs,
    ∀ m ∈ s.commons.store.monitors, ∀ m' ∈ s.commons.store.monitors, m.id = r.monitorId →
      m'.id = r'.monitorId → m.org = m'.org →
      (r.jobName = r'.jobName ↔ m.id = m'.id ∧ r.id.short = r'.id.short)
  /-- Whoever calls about a job does so for a run for which the job has been submitted. The call
  reaches the job of a stored run only if the monitor of that has the same organization and the same
  name, and its identifier the same first eight digits. -/
  called : ∀ e s' job, s.Step e s' → e.job? = some job → ∃ k spec, ∃ run : Uuid, e.caller = some k ∧
    job = .run spec.space spec.name ∧ IsJobFor k spec es ∧ spec.parameters.runId = run.render ∧
    ∀ r ∈ s.commons.store.runs, ∀ m ∈ s.commons.store.monitors, m.id = r.monitorId →
      job = .run m.org r.jobName →
      m.org = spec.space ∧ m.name = spec.parameters.monitorName ∧ r.id.short = run.short

namespace Site

variable {s₀ s : Site} {es : List Event}

/-- At every moment of every history that begins with an empty store, jobs can be told apart by
monitors and by the first eight digits of runs. -/
theorem jobs_told_apart (hnew : s₀.IsNew) (h : s₀.History es s) (hclient : SubmitsByClient es) :
    s.TellsJobsApart es := by
  obtain ⟨g, hg, hseen⟩ := h.exists_scene hnew.tasks
  have hreachable : g.Reachable := ⟨_, es, hnew.store, hnew.holder, hg⟩
  have hname : ∀ r ∈ s.commons.store.runs, ∀ m ∈ s.commons.store.monitors, m.id = r.monitorId →
      r.jobName = jobName m.name r.id := by
    rw [← hseen.commons]
    exact fun r hr m hm hid => hg.jobName_eq hnew.store hnew.holder hr hm hid
  have hrule : ∀ m ∈ s.commons.store.monitors, Rules.checkName m.name = .ok () := by
    rw [← hseen.commons]
    exact fun m hm => (hreachable.isWellFormed m (.inl hm)).name
  refine ⟨fun r hr r' hr' m hm m' hm' hid hid' horg => ?_, fun e s' job hstep hjob => ?_⟩
  · rw [hname r hr m hm hid, hname r' hr' m' hm' hid', jobName_inj (hrule m hm) (hrule m' hm')]
    refine and_congr_left fun _ => ⟨fun heq => ?_, fun heq => ?_⟩
    · have hconsistent := hseen.commons ▸ hreachable.isConsistent
      rw [hconsistent.eq_of_name hm hm' horg heq]
    · have hnodup := (hseen.commons ▸ hreachable.isConsistent).ids
      rw [List.inj_on_of_nodup_map hnodup hm hm' heq]
  · obtain ⟨k, hk, hgrounds⟩ := hstep.grounds hnew.tasks h hjob
    obtain ⟨spec, hspec, hfor⟩ := hg.isJobFor_of_grounds hnew.store hnew.holder hclient hgrounds
    obtain ⟨home, hregisters⟩ := hg.exists_registers hnew.store hnew.holder
    obtain ⟨e', he', haccepted⟩ := hfor.1
    obtain ⟨i, a, rfl⟩ := Event.of_accepted? haccepted
    obtain ⟨id, -, run, hsubmitted⟩ := hregisters.submitted i a spec _ he'
    refine ⟨k, spec, run, hk, hspec, hfor, hsubmitted.runId, fun r hr m hm hid hsame => ?_⟩
    obtain ⟨hspace, -, hjobName⟩ := JobRef.mk.inj (hspec.symm.trans hsame)
    rw [hsubmitted.name, hname r hr m hm hid, jobName_inj hsubmitted.isName (hrule m hm)]
      at hjobName
    exact ⟨hspace.symm, hjobName.1.symm.trans hsubmitted.monitorName.symm, hjobName.2.symm⟩

/-- Surroundings that accept every job, and in which identifiers differ in their last digits. -/
def alike : Surroundings where
  id n := ⟨BitVec.ofNat 128 n⟩
  cancelled := Surroundings.accepting.cancelled
  plane := Surroundings.accepting.plane

/-- A past monitor is created, its run is carried out again, and somebody is about to read the log
of the first run. -/
def twice : List Turn :=
  Turn.alone (.create "evaluation" "acme" (.tone "care" (some ⟨⟨0, 0⟩, ⟨3600, 0⟩⟩))) 0 11 ++
    Turn.alone (.rerun "evaluation" "acme" "care" (alike.id 1)) 1 7 ++
    Turn.alone (.logs "acme" "care" (alike.id 1)) 2 2

/-- Of two runs of one monitor with the same job, while the log of one is read. -/
theorem jobs_told_apart_twice :
    let s₀ := holding [] ⟨7200, 0⟩
    let s := s₀.after alike twice
    s₀.IsNew ∧ s₀.History s.1 s.2 ∧ SubmitsByClient s.1 ∧ s.2.TellsJobsApart s.1 ∧
      s.2.commons.store.runs.map (fun r => (r.id, r.jobName)) =
        [(alike.id 1, "care-00000000"), (alike.id 2, "care-00000000")] ∧
      ((s.2.turn? alike (.task 2)).bind fun (e, _) => e.job?) =
        some (.run "acme" "care-00000000") := by
  intro s₀ s
  have hnew : s₀.IsNew := ⟨rfl, rfl, rfl⟩
  have h : s₀.History s.1 s.2 := history_after (by decide +kernel)
  have hclient : SubmitsByClient s.1 := submitsByClient_after (fun _ => rfl) (by decide +kernel)
  exact ⟨hnew, h, hclient, jobs_told_apart hnew h hclient, by decide +kernel, by decide +kernel⟩

/-- Two stored runs of an organization may have the same job name although no identifier has been
drawn twice. -/
theorem job_shared :
    ¬ ∀ s : Site, s.Reachable → ∀ r ∈ s.commons.store.runs, ∀ r' ∈ s.commons.store.runs,
      ∀ m ∈ s.commons.store.monitors, ∀ m' ∈ s.commons.store.monitors, m.id = r.monitorId →
        m'.id = r'.monitorId → m.org = m'.org → r.jobName = r'.jobName → r.id = r'.id := by
  intro hclaim
  have hreachable : ((holding [] ⟨7200, 0⟩).after alike twice).2.Reachable :=
    reachable_after (by decide +kernel)
  have hcontrary := hclaim _ hreachable
  revert hcontrary
  decide +kernel

end Site

end TraceWatch
