import TraceWatch.Proofs.Jobs.Custody

/-!
# The name of a job through a history

If no other job goes by the name of a job, the name tells what becomes of it. Before a run of the
name is recorded, only the execution that is to record it shows the name (`Unrecorded`); after that
nobody records another (`Settled`), and the store alone shows the name as long as no deletion lists
the run (`Recorded`). So if the monitor is deleted first, the name is nowhere to be seen any more:
`Scene.History.recorded_of_overtaken`.
-/

namespace TraceWatch

/-! ## A name that is not to be seen -/

namespace Phase

/-- A deletion has still to delete a job of this name. -/
def Lists (name : String) : Phase → Prop
  | listed _ runs | cleaning _ runs => ∃ r ∈ runs, r.jobName = name
  | _ => False

/-- An execution may still record a run whose job has this name. -/
def MayRecord (name : String) : Phase → Prop
  | accepted _ x id _ | stamped _ x id _ _ => x.jobName id = name
  | _ => False

/-- The record of a run whose job has this name has been refused. -/
def Refuses (name : String) : Phase → Prop
  | refused _ x id _ => x.jobName id = name
  | _ => False

/-- The plane refers to the job of an execution by its name. -/
def Named : Phase → Prop
  | accepted _ x id job | stamped _ x id job _ | refused _ x id job => job.name = x.jobName id
  | _ => True

end Phase

/-- Whether the plane accepts a job of this name. -/
def Event.accepts (name : String) (e : Event) : Bool :=
  e.accepted?.any fun (spec, _) => spec.name = name

theorem Event.accepts_submit {k : Nat} {a : Activity} {spec : JobSpec} {job : JobRef}
    {name : String} (h : spec.name = name) :
    (call k a (.plane (.submit spec)) (.ok job)).accepts name = true := by
  rw [accepts, accepted?, Option.any_some]
  exact decide_eq_true h

namespace Passage

variable {a : Activity} {φ φ' : Phase} {c : Call} {answer : c.Answer} {w w' : Commons} {k : Nat}
  {name : String}

/-- A deletion that has a job of this name on its list had it there before, or has just listed a
stored run of it. -/
theorem of_lists (h : Passage a φ c answer φ') (hw : w.Answers k c answer w')
    (hφ' : φ'.Lists name) : φ.Lists name ∨ ∃ r ∈ w.store.runs, r.jobName = name ∧
      (Event.call k a c answer).sweeps r.monitorId = true := by
  cases h with
  | enlist =>
    obtain ⟨r, hr, hname⟩ := hφ'
    obtain ⟨hstored, hmonitor⟩ := hw.mem_of_listRuns.1 hr
    exact .inr ⟨r, hstored, hname, decide_eq_true hmonitor.symm⟩
  | remove => exact .inl hφ'
  | clean =>
    obtain ⟨r, hr, hname⟩ := hφ'
    exact .inl ⟨r, .tail _ hr, hname⟩
  | @reject _ purpose | @record _ purpose | @compensate _ purpose =>
    cases purpose <;> exact False.elim hφ'
  | _ => exact .inl hφ'

/-- An execution that may record a run of this name could do so before, or its job has just been
accepted. -/
theorem of_mayRecord (h : Passage a φ c answer φ') (hφ' : φ'.MayRecord name) :
    φ.MayRecord name ∨ (Event.call k a c answer).accepts name = true := by
  cases h with
  | submit => exact .inr (Event.accepts_submit hφ')
  | stamp => exact .inl hφ'
  | @reject _ purpose | @record _ purpose | @compensate _ purpose =>
    cases purpose <;> exact False.elim hφ'
  | _ => first | exact .inl hφ' | exact False.elim hφ'

/-- An execution whose record of this name has been refused might have recorded it. -/
theorem of_refuses (h : Passage a φ c answer φ') (hφ' : φ'.Refuses name) :
    φ.Refuses name ∨ (φ.MayRecord name ∧ ∃ r, c = .store (.createRun r)) := by
  cases h with
  | refuse => exact .inr ⟨hφ', _, rfl⟩
  | @reject _ purpose | @record _ purpose | @compensate _ purpose =>
    cases purpose <;> exact False.elim hφ'
  | _ => exact .inl hφ'

/-- The plane refers to jobs by their names if it does so when it accepts them. -/
theorem named (h : Passage a φ c answer φ') (hφ : φ.Named)
    (haccept : ∀ spec job, Event.call k a c answer = .call k a (.plane (.submit spec)) (.ok job) →
      job.name = spec.name) : φ'.Named := by
  cases h with
  | @submit _ _ x id job => exact haccept (x.spec id) job rfl
  | @reject _ purpose | @record _ purpose | @compensate _ purpose => cases purpose <;> trivial
  | _ => exact hφ

end Passage

/-- A job of this name is in no list of a deletion and has not been deleted, and only monitors of a
certain sort have stored runs of it. -/
structure Untouched (name : String) (may : Uuid → Prop) (es : List Event) (s : Scene) : Prop where
  stored : ∀ r ∈ s.commons.store.runs, r.jobName = name → may r.monitorId
  unlisted : ∀ i, ¬ (s.phase i).Lists name
  undeleted : ∀ i a job answer, .call i a (.plane (.delete job)) answer ∈ es → job.name ≠ name

namespace Untouched

variable {name : String} {may : Uuid → Prop} {es : List Event}

theorem mono {may' : Uuid → Prop} {s : Scene} (h : Untouched name may es s)
    (hmay : ∀ id, may id → may' id) : Untouched name may' es s :=
  ⟨fun r hr hname => hmay _ (h.stored r hr hname), h.unlisted, h.undeleted⟩

section

variable {w w' : Commons} {g : Nat → Phase} {k : Nat} {a : Activity} {c : Call}
  {answer : c.Answer} {φ : Phase}

/-- A call leaves the job untouched if it neither records a run of it elsewhere nor lists one, and
if it does not delete the job because its record has been refused. -/
theorem call (h : Untouched name may es ⟨w, g⟩) (hpassage : Passage a (g k) c answer φ)
    (hw : w.Answers k c answer w') (hnamed : (g k).Named) (hrefuses : ¬ (g k).Refuses name)
    (hrecord : ∀ r, c = .store (.createRun r) → r.jobName = name → may r.monitorId)
    (hsweeps : ∀ id, may id → (Event.call k a c answer).sweeps id = false) :
    Untouched name may (es ++ [.call k a c answer]) ⟨w', Function.update g k φ⟩ := by
  refine ⟨fun r' hr' hname => ?_, fun i hi => ?_, fun i b job deleted hcall hname => ?_⟩
  · rcases hw.mem_runs hr' with rfl | ⟨r, hr, rfl | ⟨d, rfl, hobserves⟩⟩
    · exact hrecord r' rfl hname
    · exact h.stored r' hr hname
    · rw [hobserves.monitorId_eq]
      exact h.stored r hr (hobserves.jobName_eq.symm.trans hname)
  · rcases Phase.of_update (·.Lists name) hi with ⟨rfl, hφ⟩ | ⟨-, hi⟩
    · rcases hpassage.of_lists hw hφ with hold | ⟨r, hr, hname, hsweep⟩
      · exact h.unlisted i hold
      · rw [hsweeps _ (h.stored r hr hname)] at hsweep
        cases hsweep
    · exact h.unlisted i hi
  · rcases List.mem_append.1 hcall with hcall | hcall
    · exact h.undeleted i b job deleted hcall hname
    · cases List.mem_singleton.1 hcall
      rcases hpassage.deleteJob with ⟨purpose, x, id, hrefused⟩ | ⟨m, r, rest, hcleaning, rfl⟩
      · rw [hrefused] at hnamed hrefuses
        exact hrefuses (hnamed.symm.trans hname)
      · refine h.unlisted k ?_
        simp only [hcleaning]
        exact ⟨r, .head _, hname⟩

end

/-- The job stays untouched while the scene rests. -/
theorem rests {s s' : Scene} {e : Event} (h : Untouched name may es s) (hrests : s.Rests s')
    (he : ∀ k a c answer, e ≠ .call k a c answer) : Untouched name may (es ++ [e]) s' := by
  refine ⟨hrests.store ▸ h.stored, fun i hi => ?_, fun i b job deleted hcall => ?_⟩
  · exact h.unlisted i (hrests.of_phase id hi)
  · rcases List.mem_append.1 hcall with hcall | hcall
    · exact h.undeleted i b job deleted hcall
    · exact absurd (List.mem_singleton.1 hcall).symm (he _ _ _ _)

end Untouched

/-! ## Before the record and after it -/

/-- No run of this name has been recorded or refused. An execution that may still record one is the
only one, and its job has been accepted. -/
structure Unrecorded (name : String) (es : List Event) (s : Scene) : Prop where
  untouched : Untouched name (fun _ => False) es s
  unrefused : ∀ i, ¬ (s.phase i).Refuses name
  only : ∀ i, (s.phase i).MayRecord name → 0 < es.countP (Event.accepts name) ∧
    ∀ j, (s.phase j).MayRecord name → j = i

/-- A job of this name has been accepted, and no run of it will be recorded any more. -/
structure Settled (name : String) (es : List Event) (s : Scene) : Prop where
  accepted : 0 < es.countP (Event.accepts name)
  unheld : ∀ i, ¬ (s.phase i).MayRecord name

/-- Runs of this name are stored for monitors of a certain sort at most, and nothing else is to be
seen of the job. -/
structure Recorded (name : String) (may : Uuid → Prop) (es : List Event) (s : Scene) : Prop
    extends Untouched name may es s where
  unrefused : ∀ i, ¬ (s.phase i).Refuses name
  unheld : ∀ i, ¬ (s.phase i).MayRecord name

section

variable {w w' : Commons} {g : Nat → Phase} {k : Nat} {a : Activity} {c : Call}
  {answer : c.Answer} {φ : Phase} {name : String} {may : Uuid → Prop} {es : List Event}

/-- An execution that records a run, or whose record is refused, may not record one any more. -/
theorem Passage.not_mayRecord {r : Run} {answer : Except StoreError Unit}
    (h : Passage a (g k) (.store (.createRun r)) answer φ) : ¬ φ.MayRecord name := by
  obtain ⟨purpose, x, id, job, now, -, -, -, ⟨-, rfl⟩ | ⟨e, -, rfl⟩⟩ := h.createRun
  · cases purpose <;> exact fun h => h
  · exact fun h => h

/-- A run is recorded by an execution that may record it. -/
theorem Passage.mayRecord {r : Run} {answer : Except StoreError Unit}
    (h : Passage a (g k) (.store (.createRun r)) answer φ) : (g k).MayRecord r.jobName := by
  obtain ⟨purpose, x, id, job, now, hstamped, rfl, -⟩ := h.createRun
  rw [hstamped]
  rfl

/-- A call with which nobody records a run of this name leaves it unrecorded. -/
theorem Unrecorded.call_other (h : Unrecorded name es ⟨w, g⟩)
    (hpassage : Passage a (g k) c answer φ) (hw : w.Answers k c answer w') (hnamed : (g k).Named)
    (hrecord : ¬ ((∃ r, c = .store (.createRun r)) ∧ (g k).MayRecord name))
    (honce : (es ++ [Event.call k a c answer]).countP (Event.accepts name) ≤ 1) :
    Unrecorded name (es ++ [.call k a c answer]) ⟨w', Function.update g k φ⟩ := by
  have hcount : (es ++ [Event.call k a c answer]).countP (Event.accepts name) =
      es.countP (Event.accepts name) + if (Event.call k a c answer).accepts name then 1 else 0 := by
    rw [List.countP_append, List.countP_singleton]
  -- who may record after the call could do so before, or nobody could
  have hmay : ∀ i, (Function.update g k φ i).MayRecord name → (g i).MayRecord name ∨
      (i = k ∧ (Event.call k a c answer).accepts name = true ∧ ∀ j, ¬ (g j).MayRecord name) := by
    intro i hi
    rcases Phase.of_update (·.MayRecord name) hi with ⟨rfl, hφ⟩ | ⟨-, hi⟩
    · refine (hpassage.of_mayRecord hφ).imp_right fun haccepts => ⟨rfl, haccepts, fun j hj => ?_⟩
      have hpos := (h.only j hj).1
      rw [hcount, if_pos haccepts] at honce
      omega
    · exact .inl hi
  refine ⟨h.untouched.call hpassage hw hnamed (h.unrefused k) (fun r hr hname => ?_) nofun,
    fun i hi => ?_, fun i hi => ?_⟩
  · subst hr
    exact hrecord ⟨⟨r, rfl⟩, hname ▸ hpassage.mayRecord⟩
  · rcases Phase.of_update (·.Refuses name) hi with ⟨rfl, hφ⟩ | ⟨-, hi⟩
    · rcases hpassage.of_refuses hφ with hold | ⟨hmayRecord, hcreate⟩
      · exact h.unrefused i hold
      · exact hrecord ⟨hcreate, hmayRecord⟩
    · exact h.unrefused i hi
  · rcases hmay i hi with hold | ⟨rfl, haccepts, hnobody⟩
    · refine ⟨by rw [hcount]; exact Nat.lt_add_right _ (h.only i hold).1, fun j hj => ?_⟩
      rcases hmay j hj with hold' | ⟨-, -, hnobody⟩
      · exact (h.only i hold).2 j hold'
      · exact absurd hold (hnobody i)
    · refine ⟨by rw [hcount, if_pos haccepts]; omega, fun j hj => ?_⟩
      rcases hmay j hj with hold' | ⟨rfl, -, -⟩
      · exact absurd hold' (hnobody j)
      · rfl

/-- If somebody records a run of this name, or is refused to, nobody does so again. -/
theorem Unrecorded.settled (h : Unrecorded name es ⟨w, g⟩) {r : Run}
    {answer : Except StoreError Unit} (hpassage : Passage a (g k) (.store (.createRun r)) answer φ)
    (hk : (g k).MayRecord name) (e : Event) :
    Settled name (es ++ [e]) ⟨w', Function.update g k φ⟩ := by
  refine ⟨?_, fun i hi => ?_⟩
  · rw [List.countP_append]
    exact Nat.lt_add_right _ (h.only k hk).1
  · rcases Phase.of_update (·.MayRecord name) hi with ⟨rfl, hφ⟩ | ⟨hik, hi⟩
    · exact hpassage.not_mayRecord hφ
    · exact hik ((h.only k hk).2 i hi)

/-- Nobody records a run of this name after it has been settled. -/
theorem Settled.call (h : Settled name es ⟨w, g⟩) (hpassage : Passage a (g k) c answer φ)
    (honce : (es ++ [Event.call k a c answer]).countP (Event.accepts name) ≤ 1) :
    Settled name (es ++ [.call k a c answer]) ⟨w', Function.update g k φ⟩ := by
  rw [List.countP_append] at honce
  refine ⟨?_, fun i hi => ?_⟩
  · rw [List.countP_append]
    exact Nat.lt_add_right _ h.accepted
  · rcases Phase.of_update (·.MayRecord name) hi with ⟨rfl, hφ⟩ | ⟨-, hi⟩
    · rcases hpassage.of_mayRecord hφ with hold | haccepts
      · exact h.unheld i hold
      · have haccepted := h.accepted
        rw [List.countP_singleton, if_pos haccepts] at honce
        omega
    · exact h.unheld i hi

/-- When a run of this name is recorded, it is the only thing to be seen of the job. -/
theorem Unrecorded.record (h : Unrecorded name es ⟨w, g⟩) {r : Run}
    (hpassage : Passage a (g k) (.store (.createRun r)) (.ok ()) φ)
    (hw : w.Answers k (.store (.createRun r)) (.ok ()) w') (hnamed : (g k).Named)
    (hname : r.jobName = name) :
    Recorded name (· = r.monitorId) (es ++ [.call k a (.store (.createRun r)) (.ok ())])
      ⟨w', Function.update g k φ⟩ := by
  have hsettled : Settled name (es ++ [.call k a (.store (.createRun r)) (.ok ())])
      ⟨w', Function.update g k φ⟩ := h.settled hpassage (hname ▸ hpassage.mayRecord) _
  refine ⟨(h.untouched.mono fun _ => False.elim).call hpassage hw hnamed (h.unrefused k) ?_ ?_,
    fun i hi => ?_, hsettled.unheld⟩
  · intro d hd _
    cases hd
    rfl
  · exact fun id _ => Event.sweeps_eq_false fun heq => (by cases heq)
  · rcases Phase.of_update (·.Refuses name) hi with ⟨rfl, hφ⟩ | ⟨-, hi⟩
    · obtain ⟨purpose, x, id, job, now, -, -, -, ⟨-, rfl⟩ | ⟨e, herror, -⟩⟩ := hpassage.createRun
      · cases purpose <;> exact hφ
      · cases herror
    · exact h.unrefused i hi

/-- A run stays the only thing to be seen of its job if a call lists no runs of its monitor and no
other job of the name is accepted. -/
theorem Recorded.call (h : Recorded name may es ⟨w, g⟩) (hpassage : Passage a (g k) c answer φ)
    (hw : w.Answers k c answer w') (hnamed : (g k).Named)
    (haccepts : (Event.call k a c answer).accepts name = false)
    (hsweeps : ∀ id, may id → (Event.call k a c answer).sweeps id = false) :
    Recorded name may (es ++ [.call k a c answer]) ⟨w', Function.update g k φ⟩ := by
  refine ⟨h.toUntouched.call hpassage hw hnamed (h.unrefused k) (fun r hr hname => ?_) hsweeps,
    fun i hi => ?_, fun i hi => ?_⟩
  · subst hr
    exact absurd (hname ▸ hpassage.mayRecord) (h.unheld k)
  · rcases Phase.of_update (·.Refuses name) hi with ⟨rfl, hφ⟩ | ⟨-, hi⟩
    · rcases hpassage.of_refuses hφ with hold | ⟨hmayRecord, -⟩
      · exact h.unrefused i hold
      · exact h.unheld i hmayRecord
    · exact h.unrefused i hi
  · rcases Phase.of_update (·.MayRecord name) hi with ⟨rfl, hφ⟩ | ⟨-, hi⟩
    · rcases hpassage.of_mayRecord hφ with hold | haccepted
      · exact h.unheld i hold
      · rw [haccepts] at haccepted
        cases haccepted
    · exact h.unheld i hi

/-- When the monitor is deleted, nothing is to be seen of the job any more. -/
theorem Recorded.delete {id : Uuid} {answer : Except StoreError Unit}
    (h : Recorded name (· = id) es ⟨w, g⟩)
    (hpassage : Passage a (g k) (.store (.deleteMonitor id)) answer φ)
    (hw : w.Answers k (.store (.deleteMonitor id)) answer w') (hnamed : (g k).Named) :
    Recorded name (fun _ => False) (es ++ [.call k a (.store (.deleteMonitor id)) answer])
      ⟨w', Function.update g k φ⟩ := by
  obtain ⟨huntouched, hunrefused, hunheld⟩ :=
    h.call hpassage hw hnamed rfl fun _ _ => Event.sweeps_eq_false fun heq => (by cases heq)
  refine ⟨⟨fun r hr hname => ?_, huntouched.unlisted, huntouched.undeleted⟩, hunrefused, hunheld⟩
  have hmonitor : r.monitorId = id := huntouched.stored r hr hname
  obtain ⟨-, rfl⟩ := hw
  dsimp only at hr
  exact StoreCall.monitorId_ne_of_mem_delete hr hmonitor

end

/-! ## Every history -/

/-- The plane refers to jobs by their names. -/
def PlaneNames (es : List Event) : Prop :=
  ∀ e ∈ es, ∀ accepted ∈ e.accepted?, accepted.2.name = accepted.1.name

theorem PlaneNames.of_append {es es' : List Event} (h : PlaneNames (es ++ es')) :
    PlaneNames es ∧ PlaneNames es' :=
  List.forall_mem_append.1 h

namespace Scene

variable {s s' : Scene} {e : Event} {es es' : List Event} {name : String} {may : Uuid → Prop}

theorem Step.named (hstep : Step s e s') (hs : ∀ i, (s.phase i).Named) (hnames : PlaneNames [e]) :
    ∀ i, (s'.phase i).Named := by
  intro i
  rcases hstep.call_or_rests with ⟨k, a, c, answer, rfl⟩ | ⟨-, hrests⟩
  · cases hstep with
    | @call w w' g _ _ _ _ φ hpassage hw =>
      refine Phase.to_update Phase.Named (fun _ => ?_) fun _ => hs i
      refine hpassage.named (k := k) (hs k) fun spec job heq => ?_
      exact hnames _ (.head _) (spec, job) (by rw [heq]; rfl)
  · exact hrests.to_phase trivial (hs i)

/-- Until a run of this name is recorded or refused there is nothing to be seen of the job, and
afterwards no other run of it is recorded. -/
theorem History.unrecorded_or_settled {w : Commons} (h : (ofCommons w).History es s)
    (hruns : ∀ r ∈ w.store.runs, r.jobName ≠ name) (hnames : PlaneNames es)
    (honce : es.countP (Event.accepts name) ≤ 1) :
    (∀ i, (s.phase i).Named) ∧ (Unrecorded name es s ∨ Settled name es s) := by
  induction h with
  | nil =>
    refine ⟨fun _ => trivial, .inl ⟨⟨fun r hr hname => hruns r hr hname, fun _ hi => hi, ?_⟩,
      fun _ hi => hi, fun _ hi => False.elim hi⟩⟩
    exact fun _ _ _ _ hcall => absurd hcall List.not_mem_nil
  | @snoc es e s₁ s₂ _ hstep ih =>
    have hle : es.countP (Event.accepts name) ≤ (es ++ [e]).countP (Event.accepts name) := by
      rw [List.countP_append]
      exact Nat.le_add_right _ _
    obtain ⟨hnames₁, hnames₂⟩ := hnames.of_append
    obtain ⟨hnamed, ih⟩ := ih hnames₁ (Nat.le_trans hle honce)
    refine ⟨hstep.named hnamed hnames₂, ?_⟩
    rcases hstep.call_or_rests with ⟨k, a, c, answer, rfl⟩ | ⟨hother, hrests⟩
    · cases hstep with
      | @call w w' g _ _ _ _ φ hpassage hw =>
        rcases ih with hunrecorded | hsettled
        · by_cases hrecord : (∃ r, c = .store (.createRun r)) ∧ (g k).MayRecord name
          · obtain ⟨⟨r, rfl⟩, hk⟩ := hrecord
            exact .inr (hunrecorded.settled hpassage hk _)
          · exact .inl (hunrecorded.call_other hpassage hw (hnamed k) hrecord honce)
        · exact .inr (hsettled.call hpassage honce)
    · rcases ih with hunrecorded | hsettled
      · refine .inl ⟨hunrecorded.untouched.rests hrests hother, fun i hi => ?_, fun i hi => ?_⟩
        · exact hunrecorded.unrefused i (hrests.of_phase id hi)
        · obtain ⟨hpos, honly⟩ := hunrecorded.only i (hrests.of_phase id hi)
          exact ⟨Nat.lt_of_lt_of_le hpos hle, fun j hj => honly j (hrests.of_phase id hj)⟩
      · refine .inr ⟨Nat.lt_of_lt_of_le hsettled.accepted hle, fun i hi => ?_⟩
        exact hsettled.unheld i (hrests.of_phase id hi)

/-- Once a run of this name has been recorded, it is the only thing to be seen of the job as long as
no deletion lists it. -/
theorem History.recorded (h : s.History es' s') (hs : Recorded name may es s)
    (hnamed : ∀ i, (s.phase i).Named) (hnames : PlaneNames es')
    (haccepts : ∀ e ∈ es', e.accepts name = false)
    (hsweeps : ∀ e ∈ es', ∀ id, may id → e.sweeps id = false) :
    (∀ i, (s'.phase i).Named) ∧ Recorded name may (es ++ es') s' := by
  induction h with
  | nil => exact ⟨hnamed, by rwa [List.append_nil]⟩
  | @snoc es' e s₁ s₂ _ hstep ih =>
    obtain ⟨hnames₁, hnames₂⟩ := hnames.of_append
    obtain ⟨hnamed, ih⟩ := ih hnames₁ (fun e he => haccepts e (List.mem_append_left _ he))
      fun e he => hsweeps e (List.mem_append_left _ he)
    have he : e ∈ es' ++ [e] := List.mem_append_right _ (.head _)
    refine ⟨hstep.named hnamed hnames₂, ?_⟩
    rw [← List.append_assoc]
    rcases hstep.call_or_rests with ⟨k, a, c, answer, rfl⟩ | ⟨hother, hrests⟩
    · cases hstep with
      | call hpassage hw =>
        exact ih.call hpassage hw (hnamed k) (haccepts _ he) (hsweeps _ he)
    · exact ⟨ih.toUntouched.rests hrests hother,
        fun i hi => ih.unrefused i (hrests.of_phase id hi),
        fun i hi => ih.unheld i (hrests.of_phase id hi)⟩

/-- If the run of a job that is alone with its name has been overtaken, then nothing is to be seen
of the job any more. -/
theorem History.recorded_of_overtaken {w : Commons} {spec : JobSpec}
    (h : (ofCommons w).History es s) (hruns : ∀ r ∈ w.store.runs, r.jobName ≠ spec.name)
    (hnames : PlaneNames es) (honce : es.countP (Event.accepts spec.name) ≤ 1)
    (hovertaken : Overtaken spec es) : Recorded spec.name (fun _ => False) es s := by
  obtain ⟨_, j, b, id, answer, es₄, rfl, es₁, i, a, r, es₂, rfl, hcarries, rfl, hsweeps⟩ :=
    hovertaken
  have hname : r.jobName = spec.name := hcarries.name.symm
  -- the scenes before and after the record, and before and after the deletion
  obtain ⟨g₃, g₄, h, hdelete, hafter⟩ := h.split_cons
  obtain ⟨g₁, g₂, hbefore, hrecord, hbetween⟩ := h.split_cons
  obtain ⟨hnames₁, hnames₄⟩ := hnames.of_append
  obtain ⟨hnames₁, hnames₂⟩ := hnames₁.of_append
  rw [← List.singleton_append] at hnames₂ hnames₄
  simp only [List.countP_append, List.countP_cons] at honce
  obtain ⟨hnamed, hunrecorded⟩ := hbefore.unrecorded_or_settled hruns hnames₁ (by omega)
  have hnamed₂ := hrecord.named hnamed hnames₂.of_append.1
  cases hrecord with
  | @call w₁ w₂ g _ _ _ _ φ hpassage hw =>
    have hk : (g i).MayRecord spec.name := hname ▸ hpassage.mayRecord
    have hunrecorded := hunrecorded.resolve_right fun hsettled => hsettled.unheld i hk
    have hpos := (hunrecorded.only i hk).1
    have hnone : ∀ es' : List Event, es'.countP (Event.accepts spec.name) = 0 →
        ∀ e ∈ es', e.accepts spec.name = false := fun es' hzero e he =>
      Bool.eq_false_iff.2 (List.countP_eq_zero.1 hzero e he)
    obtain ⟨hnamed₃, hrecorded⟩ := hbetween.recorded
      (hunrecorded.record hpassage hw (hnamed i) hname) hnamed₂ hnames₂.of_append.2
      (hnone es₂ (by omega)) fun e he id hid => hid ▸ hsweeps e he
    have hnamed₄ := hdelete.named hnamed₃ hnames₄.of_append.1
    cases hdelete with
    | call hpassage hw =>
      have hdeleted := hrecorded.delete hpassage hw (hnamed₃ j)
      have hrun := (hafter.recorded hdeleted hnamed₄ hnames₄.of_append.2
        (hnone es₄ (by omega)) fun _ _ _ => False.elim).2
      simpa only [List.append_assoc, List.singleton_append] using hrun

end Scene

end TraceWatch
