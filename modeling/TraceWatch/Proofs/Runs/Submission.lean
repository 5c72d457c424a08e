import TraceWatch.Proofs.Jobs.Custody
import TraceWatch.Proofs.Runs.InFlight
import TraceWatch.Proofs.Text.Uuid

/-!
# What was submitted for a run

An execution draws an identifier, submits a job under it and then records the run. Since nobody else
draws the identifier, no other job is ever submitted under it and no other run recorded, and what
the job and the run say of each other when they are made stays true (`Scene.Accords`): a stored run
is, but for its status, one that has been recorded, and a recorded run has one job, which carries
it.
-/

namespace TraceWatch

/-! ## What is fixed about a run -/

/-- What a run is recorded with and keeps. -/
structure RunOrigin where
  id : Uuid
  monitorId : Uuid
  jobName : String
  window : Window
  evaluators : List Evaluator
  createdAt : Timestamp

/-- What the run was recorded with. -/
def Run.origin (r : Run) : RunOrigin where
  id := r.id
  monitorId := r.monitorId
  jobName := r.jobName
  window := r.window
  evaluators := r.evaluators
  createdAt := r.createdAt

/-- A job carries every run that has been recorded with the same. -/
theorem JobSpec.Carries.of_origin {spec : JobSpec} {r r' : Run} (h : spec.Carries r)
    (horigin : r'.origin = r.origin) : spec.Carries r' := by
  have hwindow : r'.window = r.window := congrArg RunOrigin.window horigin
  refine ⟨?_, ?_, ?_, ?_, ?_, ?_⟩
  · exact h.name.trans (congrArg RunOrigin.jobName horigin).symm
  · exact h.runId.trans (congrArg (fun o => o.id.render) horigin).symm
  · exact h.monitorId.trans (congrArg (fun o => o.monitorId.render) horigin).symm
  · rw [h.traceStart, hwindow]
  · rw [h.traceEnd, hwindow]
  · rw [h.evaluators, show r'.evaluators = r.evaluators from congrArg RunOrigin.evaluators horigin]

/-- How far a run has come is not part of what it was recorded with. -/
theorem Event.Restates.origin_eq {now : Timestamp} {r r' : Run} {e : Event}
    (h : e.Restates now r r') : r'.origin = r.origin := by
  obtain ⟨_, _, _, _, _, -, rfl⟩ := h
  rfl

/-! ## Submissions and records -/

/-- The job has been submitted for the run with the identifier. -/
def HasSubmitted (id : Uuid) (spec : JobSpec) (es : List Event) : Prop :=
  spec.parameters.runId = id.render ∧
    ∃ k a answer, .call k a (.plane (.submit spec)) answer ∈ es

/-- The job has been accepted, and no other has been submitted for the run with the identifier. -/
structure SubmittedAs (id : Uuid) (spec : JobSpec) (es : List Event) : Prop where
  accepted : ∃ job, HasAccepted spec job es
  only : ∀ spec', HasSubmitted id spec' es → spec' = spec

/-- The run has been recorded. -/
def HasRecorded (r : Run) (es : List Event) : Prop := ∃ e ∈ es, e.Records r

section

variable {id : Uuid} {spec : JobSpec} {r : Run} {es : List Event} {e : Event}

theorem HasAccepted.concat {job : JobRef} (h : HasAccepted spec job es) :
    HasAccepted spec job (es ++ [e]) :=
  have ⟨e', he', haccepted⟩ := h
  ⟨e', List.mem_append_left _ he', haccepted⟩

/-- A run that has been recorded in a part of a history has been recorded in the whole. -/
theorem HasRecorded.mono {es' : List Event} (h : HasRecorded r es) (hes : es ⊆ es') :
    HasRecorded r es' :=
  have ⟨e', he', hrecords⟩ := h
  ⟨e', hes he', hrecords⟩

theorem HasRecorded.of_concat (h : HasRecorded r (es ++ [e])) : HasRecorded r es ∨ e.Records r := by
  obtain ⟨e', he', hrecords⟩ := h
  rcases List.mem_append.1 he' with he' | he'
  · exact .inl ⟨e', he', hrecords⟩
  · exact .inr (List.mem_singleton.1 he' ▸ hrecords)

theorem HasSubmitted.of_concat (h : HasSubmitted id spec (es ++ [e])) :
    HasSubmitted id spec es ∨ ∃ k a answer, e = .call k a (.plane (.submit spec)) answer := by
  obtain ⟨hid, k, a, answer, hmem⟩ := h
  rcases List.mem_append.1 hmem with hmem | hmem
  · exact .inl ⟨hid, k, a, answer, hmem⟩
  · exact .inr ⟨k, a, answer, (List.mem_singleton.1 hmem).symm⟩

/-- A job stays the only one until another is submitted. -/
theorem SubmittedAs.concat (h : SubmittedAs id spec es)
    (he : ∀ spec', HasSubmitted id spec' (es ++ [e]) → HasSubmitted id spec' es) :
    SubmittedAs id spec (es ++ [e]) where
  accepted := have ⟨job, haccepted⟩ := h.accepted; ⟨job, haccepted.concat⟩
  only := fun spec' hsubmitted => h.only spec' (he spec' hsubmitted)

end

/-! ## Who submits and who records -/

/-- What has been submitted under the identifier that an execution has drawn: nothing yet, or the
job that has been accepted. -/
def Phase.Accords (es : List Event) : Phase → Prop
  | submitting _ _ id => ∀ spec, ¬ HasSubmitted id spec es
  | accepted _ x id _ | stamped _ x id _ _ => SubmittedAs id (x.spec id) es
  | _ => True

/-- What has been submitted stays so, unless something is submitted under the identifier that the
execution has drawn. -/
theorem Phase.Accords.concat {φ : Phase} {es : List Event} {e : Event} (h : φ.Accords es)
    (he : ∀ id, φ.drawn = some id →
      ∀ spec, HasSubmitted id spec (es ++ [e]) → HasSubmitted id spec es) :
    φ.Accords (es ++ [e]) := by
  cases φ with
  | submitting _ x id => exact fun spec hsubmitted => h spec (he id rfl spec hsubmitted)
  | accepted _ x id _ | stamped _ x id _ _ => exact SubmittedAs.concat h (he id rfl)
  | _ => trivial

/-- The execution that makes a call knows what has been submitted for its run. -/
theorem Passage.accords {a : Activity} {φ φ' : Phase} {c : Call} {answer : c.Answer}
    {w w' : Commons} {k : Nat} {es : List Event} (h : Passage a φ c answer φ')
    (hw : w.Answers k c answer w') (hφ : φ.Accords es)
    (hissued : ∀ id spec, HasSubmitted id spec es → id ∈ w.issued) :
    φ'.Accords (es ++ [.call k a c answer]) := by
  have other (hc : ∀ spec, c ≠ .plane (.submit spec)) (id : Uuid) (spec : JobSpec)
      (hsubmitted : HasSubmitted id spec (es ++ [.call k a c answer])) :
      HasSubmitted id spec es := by
    rcases hsubmitted.of_concat with hbefore | ⟨_, _, _, heq⟩
    · exact hbefore
    · cases heq
      exact absurd rfl (hc spec)
  cases h with
  | read _ hread => cases φ <;> trivial
  | waste hread =>
    rcases hread with hread | ⟨m, r, rfl⟩
    · cases φ <;> trivial
    · trivial
  | aim | begin | again =>
    exact fun spec hsubmitted => hw.1 (hissued _ spec (other nofun _ spec hsubmitted))
  | submit =>
    refine ⟨⟨_, _, List.mem_append_right _ (.head _), rfl⟩, fun spec' hsubmitted => ?_⟩
    rcases hsubmitted.of_concat with hbefore | ⟨_, _, _, heq⟩
    · exact absurd hbefore (hφ spec')
    · cases heq
      rfl
  | stamp => exact SubmittedAs.concat hφ (other nofun _)
  | @reject _ k | @record _ k | @compensate _ k => cases k <;> trivial
  | _ => trivial

namespace Scene

variable {s s' : Scene} {e : Event} {es : List Event} {r : Run}

/-- Whoever submits a job for a run has drawn the identifier of the run. -/
theorem Step.submitted (h : Step s e s') {id : Uuid} {spec : JobSpec}
    (hsubmitted : HasSubmitted id spec (es ++ [e])) :
    HasSubmitted id spec es ∨
      ∃ k purpose x, e.caller = some k ∧ s.phase k = .submitting purpose x id := by
  rcases hsubmitted.of_concat with hbefore | ⟨k, a, answer, rfl⟩
  · exact .inl hbefore
  · cases h with
    | call hpassage _ =>
      obtain ⟨purpose, x, id', hk, rfl, -⟩ := hpassage.submit_inv
      obtain rfl : id' = id := Uuid.render_injective hsubmitted.1
      exact .inr ⟨k, purpose, x, rfl, hk⟩

/-- Whoever records a run has had its job accepted. -/
theorem Step.recorded (h : Step s e s') (he : e.Records r) :
    r ∈ s'.commons.store.runs ∧ ∃ k purpose x id job now,
      e.caller = some k ∧ s.phase k = .stamped purpose x id job now ∧ r = x.record id now := by
  obtain ⟨k, a, -, rfl⟩ := he
  cases h with
  | call hpassage hw =>
    obtain ⟨purpose, x, id, job, now, hk, rfl, -⟩ := hpassage.createRun
    obtain ⟨hanswer, rfl⟩ := hw
    exact ⟨StoreCall.mem_runs_create hanswer.symm, k, purpose, x, id, job, now, rfl, hk, rfl⟩

/-- Nobody records a run under a spent identifier. -/
theorem Spent.not_records (h : s.Spent r.id) (hstep : Step s e s') : ¬ e.Records r := by
  intro he
  obtain ⟨-, k, _, x, id, _, now, -, hk, rfl⟩ := hstep.recorded he
  refine h.undrawn k ?_
  rw [hk]
  rfl

/-- A run that is recorded is added to the store, under an identifier that no stored run has. -/
theorem Step.records_eq (h : Step s e s') (hs : s.Reachable) (he : e.Records r) :
    ¬ s.commons.store.HasRun r.id ∧
      s'.commons.store = ⟨s.commons.store.monitors, s.commons.store.runs ++ [r]⟩ := by
  obtain ⟨home, hid⟩ := hs.identities
  obtain ⟨-, i, _, x, id, _, now, -, hi, rfl⟩ := h.recorded he
  have hunused : ∀ r' ∈ s.commons.store.runs, r'.id ≠ (x.record id now).id :=
    (hid.drawn i id (by rw [hi]; rfl)).2.2
  refine ⟨fun ⟨r', hr', heq⟩ => hunused r' hr' heq, ?_⟩
  obtain ⟨k, a, -, rfl⟩ := he
  cases h with
  | call _ hw =>
    obtain ⟨hanswer, rfl⟩ := hw
    rcases StoreCall.createRun_cases (Prod.ext hanswer rfl) with ⟨_, hrefused, -⟩ | ⟨-, hadds⟩
    · cases hrefused
    · exact hadds (List.find?_eq_none.2 fun r' hr' => by simpa using hunused r' hr')

/-- Nobody submits a job for a run under a spent identifier. -/
theorem Spent.submitted (h : s.Spent r.id) (hstep : Step s e s') {spec : JobSpec}
    (hsubmitted : HasSubmitted r.id spec (es ++ [e])) : HasSubmitted r.id spec es := by
  rcases hstep.submitted hsubmitted with hbefore | ⟨k, _, _, -, hk⟩
  · exact hbefore
  · refine absurd ?_ (h.undrawn k)
    rw [hk]
    rfl

/-! ## The invariant -/

/-- The run has been recorded once, as what its job was submitted for, and if it is stored, it is
stored with what it was recorded with. -/
structure Retains (s : Scene) (es : List Event) (r : Run) : Prop where
  spent : s.Spent r.id
  submission : ∃ spec, spec.Carries r ∧ SubmittedAs r.id spec es
  stored : ∀ r' ∈ s.commons.store.runs, r'.id = r.id → r'.origin = r.origin
  only : ∀ r', HasRecorded r' es → r'.id = r.id → r' = r

/-- Jobs, records and stored runs agree. -/
structure Accords (s : Scene) (es : List Event) : Prop where
  issued : ∀ id spec, HasSubmitted id spec es → id ∈ s.commons.issued
  phases : ∀ k, (s.phase k).Accords es
  kept : ∀ r, HasRecorded r es → s.Retains es r
  recorded : ∀ r' ∈ s.commons.store.runs, ∃ r, HasRecorded r es ∧ r'.origin = r.origin

/-- A run that has been recorded is kept. -/
theorem Retains.step (h : s.Retains es r) (hstep : Step s e s') : s'.Retains (es ++ [e]) r := by
  obtain ⟨spec, hcarries, hsubmission⟩ := h.submission
  refine ⟨h.spent.step hstep, ⟨spec, hcarries, ?_⟩, fun r' hr' heq => ?_, fun r' hr' heq => ?_⟩
  · exact hsubmission.concat fun spec' => h.spent.submitted hstep
  · have hspent : s.Spent r'.id := heq ▸ h.spent
    obtain ⟨r₁, hr₁, rfl | hrestates⟩ := hspent.exists_run hstep hr'
    · exact h.stored r' hr₁ heq
    · have horigin := hrestates.origin_eq
      rw [horigin]
      exact h.stored r₁ hr₁ ((congrArg RunOrigin.id horigin).symm.trans heq)
  · rcases hr'.of_concat with hbefore | hrecords
    · exact h.only r' hbefore heq
    · have hspent : s.Spent r'.id := heq ▸ h.spent
      exact absurd hrecords (hspent.not_records hstep)

/-- A run that has just been recorded is kept. -/
theorem Accords.retains (h : s.Accords es) (hs : s.Reachable) (hstep : Step s e s')
    (he : e.Records r) : s'.Retains (es ++ [e]) r := by
  obtain ⟨hr, k, purpose, x, id, job, now, hcaller, hk, rfl⟩ := hstep.recorded he
  have hs' := hs.step hstep
  have hsubmission : SubmittedAs id (x.spec id) es := by
    have hphase := h.phases k
    rwa [hk] at hphase
  refine ⟨hs'.spent_of_run ⟨_, hr, rfl⟩, ⟨x.spec id, x.spec_carries id now, ?_⟩,
    fun r' hr' heq => ?_, fun r' hr' heq => ?_⟩
  · refine hsubmission.concat fun spec' hsubmitted => ?_
    rcases hstep.submitted hsubmitted with hbefore | ⟨k', _, _, hcaller', hk'⟩
    · exact hbefore
    · obtain rfl : k' = k := Option.some.inj (hcaller'.symm.trans hcaller)
      cases hk.symm.trans hk'
  · rw [List.inj_on_of_nodup_map hs'.tended.ids hr' hr heq]
  · rcases hr'.of_concat with hbefore | hrecords
    · have hspent : s.Spent (x.record id now).id := heq ▸ (h.kept r' hbefore).spent
      exact absurd he (hspent.not_records hstep)
    · obtain ⟨_, _, -, rfl⟩ := he
      obtain ⟨_, _, -, heq⟩ := hrecords
      cases heq
      rfl

theorem Accords.step (h : s.Accords es) (hs : s.Reachable) (hstep : Step s e s') :
    s'.Accords (es ++ [e]) := by
  obtain ⟨home, hid⟩ := hs.identities
  refine ⟨fun id spec hsubmitted => ?_, fun j => ?_, fun r hr => ?_, fun r' hr' => ?_⟩
  · rcases hstep.submitted hsubmitted with hbefore | ⟨k, _, _, -, hk⟩
    · exact hstep.issued_mono (h.issued id spec hbefore)
    · exact hstep.issued_mono (hid.drawn k id (by rw [hk]; rfl)).1
  · -- the caller knows what it does, and nobody else has drawn the identifier
    have other (hj : ∀ k, e.caller = some k → j ≠ k) : (s.phase j).Accords (es ++ [e]) := by
      refine (h.phases j).concat fun id hdrawn spec hsubmitted => ?_
      rcases hstep.submitted hsubmitted with hbefore | ⟨k, _, _, hcaller, hk⟩
      · exact hbefore
      · exact absurd (hid.apart j k id hdrawn (by rw [hk]; rfl)) (hj k hcaller)
    rcases hstep.call_or_rests with ⟨k, a, c, answer, rfl⟩ | ⟨hother, hrests⟩
    · cases hstep with
      | call hpassage hw =>
        refine Phase.to_update (·.Accords _) ?_ fun hjk => other ?_
        · rintro rfl
          exact hpassage.accords hw (h.phases j) h.issued
        · rintro k' hk'
          cases hk'
          exact hjk
    · refine hrests.to_phase (P := (·.Accords _)) trivial (other ?_)
      intro k hcaller
      cases e with
      | call => exact absurd rfl (hother _ _ _ _)
      | _ => cases hcaller
  · rcases hr.of_concat with hbefore | hrecords
    · exact (h.kept r hbefore).step hstep
    · exact h.retains hs hstep hrecords
  · by_cases hold : s.commons.store.HasRun r'.id
    · obtain ⟨r₁, hr₁, hsame⟩ := (hs.spent_of_run hold).exists_run hstep hr'
      obtain ⟨r, hr, horigin⟩ := h.recorded r₁ hr₁
      refine ⟨r, hr.mono (List.subset_append_left _ _), ?_⟩
      rcases hsame with rfl | hrestates
      · exact horigin
      · exact hrestates.origin_eq.trans horigin
    · exact ⟨r', ⟨e, List.mem_append_right _ (.head _), hstep.adds_run hr' hold⟩, rfl⟩

/-- Jobs, records and stored runs agree after every history that begins with an empty store. -/
theorem History.accords {w : Commons} (hstore : w.store = .empty) (hholder : w.holder = none)
    (h : (ofCommons w).History es s) : s.Accords es := by
  induction h with
  | nil =>
    refine ⟨fun _ _ h => ?_, fun _ => trivial, fun _ h => ?_, fun r hr => ?_⟩
    · obtain ⟨-, _, _, _, hmem⟩ := h
      exact absurd hmem List.not_mem_nil
    · obtain ⟨_, he, -⟩ := h
      exact absurd he List.not_mem_nil
    · exact absurd (hstore ▸ hr) List.not_mem_nil
  | snoc hbefore hstep ih => exact ih.step ⟨w, _, hstore, hholder, hbefore⟩ hstep

/-- A run with what another has been recorded with is carried by the one job of that. -/
theorem Accords.submission (h : s.Accords es) {r₀ : Run} (hr₀ : HasRecorded r₀ es)
    (horigin : r.origin = r₀.origin) : ∃ spec, spec.Carries r ∧ SubmittedAs r.id spec es := by
  obtain ⟨spec, hcarries, hsubmission⟩ := (h.kept r₀ hr₀).submission
  have hsame : r.id = r₀.id := congrArg RunOrigin.id horigin
  exact ⟨spec, hcarries.of_origin horigin, hsame ▸ hsubmission⟩

/-- A run that somebody has read is, but for its status, one that had been recorded. -/
theorem History.recorded_of_read {w : Commons} (hstore : w.store = .empty)
    (hholder : w.holder = none) (h : (ofCommons w).History es s) {k : Nat} {a : Activity} {c : Call}
    {answer : c.Answer} (he : .call k a c answer ∈ es)
    (hread : ∀ w w', Commons.Answers w k c answer w' → r ∈ w.store.runs) :
    ∃ r₀, HasRecorded r₀ es ∧ r.origin = r₀.origin := by
  obtain ⟨es₁, s₁, s₂, es₂, rfl, hbefore, hstep, -⟩ := h.of_mem he
  cases hstep with
  | @call v v' _ _ _ _ _ _ _ hv =>
    obtain ⟨r₀, hr₀, horigin⟩ := (hbefore.accords hstore hholder).recorded r (hread v v' hv)
    exact ⟨r₀, hr₀.mono (List.subset_append_left _ _), horigin⟩

/-- A run that somebody has found had been recorded under the identifier that it was looked for
by. -/
theorem History.recorded_of_found {w : Commons} (hstore : w.store = .empty)
    (hholder : w.holder = none) (h : (ofCommons w).History es s) {k : Nat} {a : Activity}
    {id : Uuid} (hfound : .call k a (.store (.findRun id)) (.ok (some r)) ∈ es) :
    ∃ r₀, HasRecorded r₀ es ∧ r.origin = r₀.origin ∧ r₀.id = id := by
  have hfind : ∀ v v', Commons.Answers v k (.store (.findRun id)) (.ok (some r)) v' →
      v.store.findRun id = some r := fun v v' hv => (Except.ok.inj hv.1).symm
  obtain ⟨r₀, hr₀, horigin⟩ := h.recorded_of_read hstore hholder hfound fun v v' hv =>
    List.mem_of_find?_eq_some (hfind v v' hv)
  obtain ⟨_, _, _, _, -, -, hstep, -⟩ := h.of_mem hfound
  cases hstep with
  | call _ hv =>
    have hid : r.id = id := by simpa using List.find?_some (hfind _ _ hv)
    exact ⟨r₀, hr₀, horigin, (congrArg RunOrigin.id horigin).symm.trans hid⟩

/-- A run that is recorded is another than any that has been found before. -/
theorem History.id_ne_of_found {w : Commons} (hstore : w.store = .empty) (hholder : w.holder = none)
    (h : (ofCommons w).History es s) {k : Nat} {a : Activity} {id : Uuid} {found : Run}
    (hfound : .call k a (.store (.findRun id)) (.ok (some found)) ∈ es) (hstep : Step s e s')
    (he : e.Records r) : r.id ≠ id := by
  obtain ⟨r₀, hr₀, -, hid⟩ := h.recorded_of_found hstore hholder hfound
  intro heq
  have hspent : s.Spent r₀.id := ((h.accords hstore hholder).kept r₀ hr₀).spent
  rw [hid, ← heq] at hspent
  exact hspent.not_records hstep he

end Scene

end TraceWatch
