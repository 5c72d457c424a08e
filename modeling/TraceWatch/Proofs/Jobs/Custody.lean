import TraceWatch.Proofs.Execution.Outcome
import TraceWatch.Proofs.Protocol.Identity

/-!
# Who has an accepted job

Once the plane has accepted a job, the execution that submitted it has it until the run is recorded
or the job is deleted again. Then the store has it, and a deletion that lists the runs of the
monitor takes it over. In between there is a gap: a run that is recorded after a deletion has listed
the runs goes with the monitor, and nobody deletes its job. `Custody` says that there is no other.
-/

namespace TraceWatch

/-! ## What becomes of a job -/

/-- The job that the plane accepts with an event, and its reference. -/
def Event.accepted? : Event → Option (JobSpec × JobRef)
  | call _ _ (.plane (.submit spec)) (.ok job) => some (spec, job)
  | _ => none

/-- The plane has accepted the job. -/
def HasAccepted (spec : JobSpec) (job : JobRef) (es : List Event) : Prop :=
  ∃ e ∈ es, e.accepted? = some (spec, job)

/-- Whether the plane is told to delete the job, by the reference it gave or by the one that the
job's name makes. -/
def Event.deletes (spec : JobSpec) (job : JobRef) : Event → Bool
  | call _ _ (.plane (.delete ref)) _ => ref = job ∨ ref = .run spec.space spec.name
  | _ => false

/-- The plane has been told to delete the job. -/
def HasDeleted (spec : JobSpec) (job : JobRef) (es : List Event) : Prop :=
  ∃ e ∈ es, e.deletes spec job = true

/-- Whether a deletion lists the runs of the monitor. -/
def Event.sweeps (id : Uuid) : Event → Bool
  | call _ (.delete _ _) (.store (.listRuns id' none)) (.ok _) => id' = id
  | _ => false

/-- The run of the job has been recorded for the monitor, and no deletion has listed the runs of the
monitor since. -/
def RecordedSince (spec : JobSpec) (id : Uuid) (es : List Event) : Prop :=
  ∃ es₁ i a r es₂, es = es₁ ++ .call i a (.store (.createRun r)) (.ok ()) :: es₂ ∧
    spec.Carries r ∧ r.monitorId = id ∧ ∀ e ∈ es₂, e.sweeps id = false

/-- The run of the job has been recorded, and then its monitor has been deleted before any deletion
listed the run. -/
def Overtaken (spec : JobSpec) (es : List Event) : Prop :=
  ∃ es₁ i a id answer es₂, es = es₁ ++ .call i a (.store (.deleteMonitor id)) answer :: es₂ ∧
    RecordedSince spec id es₁

instance (spec : JobSpec) (job : JobRef) (es : List Event) : Decidable (HasAccepted spec job es) :=
  inferInstanceAs (Decidable (∃ _ ∈ es, _))

instance (spec : JobSpec) (job : JobRef) (es : List Event) : Decidable (HasDeleted spec job es) :=
  inferInstanceAs (Decidable (∃ _ ∈ es, _))

section

variable {spec : JobSpec} {job : JobRef} {id : Uuid} {es : List Event} {e : Event}

theorem HasDeleted.concat (h : HasDeleted spec job es) : HasDeleted spec job (es ++ [e]) :=
  have ⟨e', he', hdeletes⟩ := h
  ⟨e', List.mem_append_left _ he', hdeletes⟩

/-- What accepts a job is a submission of it. -/
theorem Event.of_accepted? (h : e.accepted? = some (spec, job)) :
    ∃ i a, e = call i a (.plane (.submit spec)) (.ok job) := by
  unfold accepted? at h
  split at h
  · cases h
    exact ⟨_, _, rfl⟩
  · cases h

/-- What deletes a job is a call with its reference. -/
theorem Event.of_deletes (h : e.deletes spec job = true) :
    ∃ i a ref answer, e = call i a (.plane (.delete ref)) answer ∧
      (ref = job ∨ ref = .run spec.space spec.name) := by
  unfold deletes at h
  split at h
  · exact ⟨_, _, _, _, rfl, of_decide_eq_true h⟩
  · cases h

theorem RecordedSince.concat (h : RecordedSince spec id es) (he : e.sweeps id = false) :
    RecordedSince spec id (es ++ [e]) := by
  obtain ⟨es₁, i, a, r, es₂, rfl, hcarries, hid, hes₂⟩ := h
  refine ⟨es₁, i, a, r, es₂ ++ [e], by simp, hcarries, hid, fun e' he' => ?_⟩
  rcases List.mem_append.1 he' with he' | he'
  · exact hes₂ e' he'
  · rwa [List.mem_singleton.1 he']

theorem Overtaken.concat (h : Overtaken spec es) : Overtaken spec (es ++ [e]) := by
  obtain ⟨es₁, i, a, id, answer, es₂, rfl, hrecorded⟩ := h
  exact ⟨es₁, i, a, id, answer, es₂ ++ [e], by simp, hrecorded⟩

/-- What lists the runs of a monitor is a deletion. -/
theorem Event.of_sweeps (h : e.sweeps id = true) :
    ∃ i org name runs, e = call i (.delete org name) (.store (.listRuns id none)) (.ok runs) := by
  unfold sweeps at h
  split at h
  · obtain rfl := of_decide_eq_true h
    exact ⟨_, _, _, _, rfl⟩
  · cases h

/-- Other calls list no runs. -/
theorem Event.sweeps_eq_false {i : Nat} {a : Activity} {c : Call} {answer : c.Answer}
    (hc : c ≠ .store (.listRuns id none)) : (call i a c answer).sweeps id = false := by
  refine Bool.eq_false_iff.2 fun hsweeps => ?_
  obtain ⟨_, org, name, runs, heq⟩ := of_sweeps hsweeps
  cases heq
  exact hc rfl

end

/-! ## Phases that have a job -/

namespace Phase

/-- An execution has the job, which has been accepted. -/
def Holds (spec : JobSpec) (job : JobRef) : Phase → Prop
  | accepted _ x id job' | stamped _ x id job' _ | refused _ x id job' =>
    x.spec id = spec ∧ job' = job
  | _ => False

/-- A deletion has listed a run of the job and has still to delete it. -/
def Owes (spec : JobSpec) : Phase → Prop
  | listed m runs | cleaning m runs => m.org = spec.space ∧ ∃ r ∈ runs, r.jobName = spec.name
  | _ => False

/-- A job is submitted in the organization of its monitor. -/
def Homed : Phase → Prop
  | submitting _ x _ | accepted _ x _ _ | stamped _ x _ _ _ | refused _ x _ _ =>
    x.org = x.monitor.org
  | _ => True

variable {φ : Phase} {spec : JobSpec} {job : JobRef}

/-- Who has a job does not leave the calendar. -/
theorem Holds.not_mayHalt (h : φ.Holds spec job) : ¬ φ.MayHalt := by
  cases φ <;> first | exact not_false | exact False.elim h

/-- Who has still to delete a job does not leave the calendar. -/
theorem Owes.not_mayHalt (h : φ.Owes spec) : ¬ φ.MayHalt := by
  cases φ <;> first | exact not_false | exact False.elim h

end Phase

namespace Passage

variable {a : Activity} {φ φ' : Phase} {c : Call} {answer : c.Answer} {k : Nat} {spec : JobSpec}
  {job : JobRef}

theorem homed (h : Passage a φ c answer φ') (hφ : φ.Homed) : φ'.Homed := by
  cases h with
  | aim | begin | again => rfl
  | @reject _ k | @record _ k | @compensate _ k => cases k <;> trivial
  | _ => exact hφ

/-- An execution that has a job keeps it, or it records its run, or it deletes it. -/
theorem of_holds (h : Passage a φ c answer φ') (hφ : φ.Holds spec job) :
    φ'.Holds spec job ∨
      (∃ purpose x id now, φ = .stamped purpose x id job now ∧ x.spec id = spec ∧
        Event.call k a c answer = .call k a (.store (.createRun (x.record id now))) (.ok ())) ∨
      ∃ deleted, Event.call k a c answer = .call k a (.plane (.delete job)) deleted := by
  cases h with
  | read _ hread => cases φ <;> first | exact False.elim hφ | exact False.elim hread
  | waste hread =>
    rcases hread with hread | ⟨m, r, rfl⟩
    · cases φ <;> first | exact False.elim hφ | exact False.elim hread
    · exact False.elim hφ
  | stamp | refuse => exact .inl hφ
  | record =>
    obtain ⟨hspec, rfl⟩ := hφ
    exact .inr (.inl ⟨_, _, _, _, rfl, hspec, rfl⟩)
  | compensate =>
    obtain ⟨-, rfl⟩ := hφ
    exact .inr (.inr ⟨_, rfl⟩)
  | _ => exact False.elim hφ

/-- A deletion that has still to delete a job has that left, or it deletes the job now. -/
theorem of_owes (h : Passage a φ c answer φ') (hφ : φ.Owes spec) :
    φ'.Owes spec ∨ ∃ deleted, Event.call k a c answer =
      .call k a (.plane (.delete (.run spec.space spec.name))) deleted := by
  cases h with
  | read _ hread => cases φ <;> first | exact False.elim hφ | exact False.elim hread
  | waste hread =>
    rcases hread with hread | ⟨m, r, rfl⟩
    · cases φ <;> first | exact False.elim hφ | exact False.elim hread
    · exact False.elim hφ
  | remove => exact .inl hφ
  | clean =>
    obtain ⟨horg, r, hr, hname⟩ := hφ
    rcases List.mem_cons.1 hr with rfl | hr
    · exact .inr ⟨_, by rw [horg, hname]⟩
    · exact .inl ⟨horg, r, hr, hname⟩
  | _ => exact False.elim hφ

/-- A deletion that lists the runs of a monitor has found the monitor. -/
theorem of_sweeps {id : Uuid} (h : Passage a φ c answer φ')
    (hsweeps : (Event.call k a c answer).sweeps id = true) :
    ∃ m runs, φ = .loaded m ∧ φ' = .listed m runs ∧ m.id = id ∧
      Event.call k a c answer = .call k a (.store (.listRuns id none)) (.ok runs) := by
  obtain ⟨_, org, name, runs, heq⟩ := Event.of_sweeps hsweeps
  cases heq
  cases h with
  | read _ _ hdelete => cases hdelete
  | enlist => exact ⟨_, _, rfl, rfl, rfl, rfl⟩

end Passage

/-! ## The invariant -/

/-- Where an accepted job is: an execution has it, or the store, or a deletion; or the plane has
been told to delete it; or its run has been overtaken by a deletion. -/
inductive Custody (home : Uuid → String × String) (spec : JobSpec) (job : JobRef)
    (es : List Event) (s : Scene) : Prop
  | held (i : Nat) : (s.phase i).Holds spec job → Custody home spec job es s
  | stored (r : Run) (m : Monitor) : r ∈ s.commons.store.runs → r.jobName = spec.name →
    m.Belongs home s.commons.issued → m.id = r.monitorId → m.org = spec.space →
    RecordedSince spec r.monitorId es → Custody home spec job es s
  | owed (i : Nat) : (s.phase i).Owes spec → Custody home spec job es s
  | deleted : HasDeleted spec job es → Custody home spec job es s
  | overtaken : Overtaken spec es → Custody home spec job es s

namespace Custody

variable {home home' : Uuid → String × String} {spec : JobSpec} {job : JobRef} {es : List Event}

section

variable {w w' : Commons} {g : Nat → Phase} {k : Nat} {a : Activity} {c : Call}
  {answer : c.Answer} {φ : Phase}

/-- After a call of the execution that has a job, somebody has the job. -/
theorem of_held (hid : Identities home ⟨w, g⟩) (hhomed : (g k).Homed)
    (hpassage : Passage a (g k) c answer φ) (hw : w.Answers k c answer w')
    (hhome : ∀ id ∈ w.issued, home' id = home id) (hk : (g k).Holds spec job) :
    Custody home' spec job (es ++ [.call k a c answer]) ⟨w', Function.update g k φ⟩ := by
  rcases hpassage.of_holds (k := k) hk with
    hφ | ⟨purpose, x, id, now, hstamped, rfl, heq⟩ | ⟨_, heq⟩
  · exact .held k (by simpa only [Function.update_self] using hφ)
  · cases heq
    have hx : x.monitor ∈ (g k).monitors := by
      simp only [hstamped]
      exact .head _
    have horg : x.org = x.monitor.org := by
      rw [hstamped] at hhomed
      exact hhomed
    have hbelongs := (hid.known k _ hx).of_call hw hhome
    have hrecorded : RecordedSince (x.spec id) x.monitor.id
        (es ++ [.call k a (.store (.createRun (x.record id now))) (.ok ())]) :=
      ⟨es, k, a, _, [], rfl, x.spec_carries id now, rfl, List.forall_mem_nil _⟩
    obtain ⟨hanswer, rfl⟩ := hw
    exact .stored (x.record id now) x.monitor (StoreCall.mem_runs_create hanswer.symm) rfl
      hbelongs rfl horg.symm hrecorded
  · cases heq
    exact .deleted ⟨_, List.mem_append_right _ (.head _), decide_eq_true (.inl rfl)⟩

/-- After a call, a run in the store is still there, or a deletion has listed it, or it is
overtaken. -/
theorem of_stored (hid : Identities home ⟨w, g⟩) (hpassage : Passage a (g k) c answer φ)
    (hw : w.Answers k c answer w') (hhome : ∀ id ∈ w.issued, home' id = home id) {r : Run}
    {m : Monitor} (hr : r ∈ w.store.runs) (hname : r.jobName = spec.name)
    (hm : m.Belongs home w.issued) (hmonitor : m.id = r.monitorId) (horg : m.org = spec.space)
    (hrecorded : RecordedSince spec r.monitorId es) :
    Custody home' spec job (es ++ [.call k a c answer]) ⟨w', Function.update g k φ⟩ := by
  by_cases hdelete : c = .store (.deleteMonitor r.monitorId)
  · subst hdelete
    exact .overtaken ⟨es, k, a, r.monitorId, answer, [], rfl, hrecorded⟩
  by_cases hsweeps : (Event.call k a c answer).sweeps r.monitorId = true
  · -- the deletion has found a monitor of the same organization
    obtain ⟨d, runs, hloaded, rfl, hd, heq⟩ := hpassage.of_sweeps hsweeps
    cases heq
    have hbelongs : d.Belongs home w.issued := hid.known k d (by simp only [hloaded]; exact .head _)
    have hsame : (d.org, d.name) = (m.org, m.name) := by
      rw [← hbelongs.2, ← hm.2, hd, hmonitor]
    refine .owed k ?_
    simp only [Function.update_self]
    exact ⟨(Prod.mk.inj hsame).1.trans horg, r, hw.mem_of_listRuns.2 ⟨hr, rfl⟩, hname⟩
  · have hunswept := hrecorded.concat (Bool.eq_false_iff.2 hsweeps)
    have hcreate : ∀ d, c = .store (.createRun d) → d.id ≠ r.id := by
      rintro d rfl heq
      obtain ⟨purpose, x, id, job', now, hstamped, rfl, -⟩ := hpassage.createRun
      have hdrawn : (g k).drawn = some id := by rw [hstamped]; rfl
      exact (hid.drawn k id hdrawn).2.2 r hr heq.symm
    obtain ⟨r', hr', rfl | ⟨d, rfl, hobserves⟩⟩ := hw.mem_runs_of_mem hr hdelete hcreate
    · exact .stored r' m hr' hname (hm.of_call hw hhome) hmonitor horg hunswept
    · have hsame : r'.monitorId = r.monitorId := hobserves.monitorId_eq
      exact .stored r' m hr' (hobserves.jobName_eq.trans hname) (hm.of_call hw hhome)
        (hmonitor.trans hsame.symm) horg (hsame ▸ hunswept)

/-- After every call, somebody has the job, or it has been deleted or overtaken. -/
theorem call (h : Custody home spec job es ⟨w, g⟩) (hid : Identities home ⟨w, g⟩)
    (hhomed : ∀ i, (g i).Homed) (hpassage : Passage a (g k) c answer φ)
    (hw : w.Answers k c answer w') (hhome : ∀ id ∈ w.issued, home' id = home id) :
    Custody home' spec job (es ++ [.call k a c answer]) ⟨w', Function.update g k φ⟩ := by
  cases h with
  | held i hi =>
    by_cases hik : i = k
    · subst hik
      exact of_held hid (hhomed i) hpassage hw hhome hi
    · exact .held i (by simpa only [Function.update_of_ne hik] using hi)
  | stored r m hr hname hm hmonitor horg hrecorded =>
    exact of_stored hid hpassage hw hhome hr hname hm hmonitor horg hrecorded
  | owed i hi =>
    by_cases hik : i = k
    · subst hik
      rcases hpassage.of_owes (k := i) hi with hφ | ⟨deleted, heq⟩
      · exact .owed i (by simpa only [Function.update_self] using hφ)
      · cases heq
        exact .deleted ⟨_, List.mem_append_right _ (.head _), decide_eq_true (.inr rfl)⟩
    · exact .owed i (by simpa only [Function.update_of_ne hik] using hi)
  | deleted h => exact .deleted h.concat
  | overtaken h => exact .overtaken h.concat

end

/-- Nothing changes hands while the scene rests. -/
theorem rests {s s' : Scene} {e : Event} (h : Custody home spec job es s) (hrests : s.Rests s')
    (he : ∀ k a c answer, e ≠ .call k a c answer) : Custody home spec job (es ++ [e]) s' := by
  cases h with
  | held i hi =>
    exact .held i ((hrests.phase_eq (Phase.Holds.not_mayHalt hi)).symm ▸ hi)
  | stored r m hr hname hm hmonitor horg hrecorded =>
    refine .stored r m (hrests.store ▸ hr) hname (hrests.issued ▸ hm) hmonitor horg
      (hrecorded.concat ?_)
    cases hsweeps : e.sweeps r.monitorId with
    | false => rfl
    | true =>
      obtain ⟨i, org, name, runs, rfl⟩ := Event.of_sweeps hsweeps
      exact absurd rfl (he _ _ _ _)
  | owed i hi =>
    exact .owed i ((hrests.phase_eq (Phase.Owes.not_mayHalt hi)).symm ▸ hi)
  | deleted h => exact .deleted h.concat
  | overtaken h => exact .overtaken h.concat

/-- At the end of every activity, a job is in the store, or it has been deleted or overtaken. -/
theorem settled {s : Scene} (h : Custody home spec job es s)
    (hs : ∀ i, (s.phase i).IsSettled ∨ (s.phase i).MayHalt) :
    (∃ r ∈ s.commons.store.runs, r.jobName = spec.name) ∨ HasDeleted spec job es ∨
      Overtaken spec es := by
  cases h with
  | held i hi =>
    have hsettled := hs i
    generalize s.phase i = φ at hi hsettled
    cases φ <;> first | exact False.elim hi | exact False.elim (hsettled.elim id id)
  | stored r m hr hname => exact .inl ⟨r, hr, hname⟩
  | owed i hi =>
    have hsettled := hs i
    generalize s.phase i = φ at hi hsettled
    cases φ with
    | cleaning m runs =>
      obtain ⟨-, r, hr, -⟩ := hi
      obtain rfl : runs = [] := hsettled.elim id False.elim
      exact absurd hr List.not_mem_nil
    | _ => first | exact False.elim hi | exact False.elim (hsettled.elim id id)
  | deleted h => exact .inr (.inl h)
  | overtaken h => exact .inr (.inr h)

end Custody

/-! ## Every history -/

namespace Scene

/-- At every moment of a history, somebody has each accepted job, or it has been deleted or
overtaken. -/
theorem History.custody {home : Uuid → String × String} {w : Commons} {s : Scene} {es : List Event}
    (h : (ofCommons w).History es s) (hid : Identities home (ofCommons w)) :
    ∃ home, Identities home s ∧ (∀ i, (s.phase i).Homed) ∧
      ∀ spec job, HasAccepted spec job es → Custody home spec job es s := by
  induction h with
  | nil =>
    refine ⟨home, hid, fun _ => trivial, fun spec job haccepted => ?_⟩
    obtain ⟨e, he, -⟩ := haccepted
    exact absurd he List.not_mem_nil
  | @snoc es e s₁ s₂ _ hstep ih =>
    obtain ⟨home, hid, hhomed, hcustody⟩ := ih
    rcases hstep.call_or_rests with ⟨k, a, c, answer, rfl⟩ | ⟨hother, hrests⟩
    · cases hstep with
      | @call w w' g _ _ _ _ φ hpassage hw =>
        obtain ⟨home', hid', hhome⟩ := hid.call hpassage hw
        refine ⟨home', hid', fun i => ?_, fun spec job haccepted => ?_⟩
        · exact Phase.to_update Phase.Homed (fun _ => hpassage.homed (hhomed k)) fun _ => hhomed i
        · obtain ⟨e, he, heq⟩ := haccepted
          rcases List.mem_append.1 he with he | he
          · exact (hcustody spec job ⟨e, he, heq⟩).call hid hhomed hpassage hw hhome
          · obtain rfl := List.mem_singleton.1 he
            obtain ⟨_, _, heq⟩ := Event.of_accepted? heq
            cases heq
            obtain ⟨purpose, x, id, -, rfl, -, ⟨job', heq, rfl⟩ | ⟨e, heq, -⟩⟩ :=
              hpassage.submit_inv
            · cases heq
              exact .held k (by simp only [Function.update_self]; exact ⟨rfl, rfl⟩)
            · cases heq
    · refine ⟨home, hid.rests hrests, fun i => ?_, fun spec job haccepted => ?_⟩
      · exact hrests.to_phase trivial (hhomed i)
      · obtain ⟨e', he, heq⟩ := haccepted
        rcases List.mem_append.1 he with he | he
        · exact (hcustody spec job ⟨e', he, heq⟩).rests hrests hother
        · obtain rfl := List.mem_singleton.1 he
          obtain ⟨i, a, rfl⟩ := Event.of_accepted? heq
          exact absurd rfl (hother _ _ _ _)

end Scene

end TraceWatch
