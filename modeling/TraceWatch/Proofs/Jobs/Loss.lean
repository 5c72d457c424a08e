import TraceWatch.Proofs.Jobs.Names
import TraceWatch.Proofs.System.Replay

/-!
# When a job is lost

An accepted job is lost if in the end no stored run bears its name and nobody has asked the plane to
delete it. `Site.job_lost_iff_overtaken` says exactly when that happens: when the run is recorded
after a deletion has listed the runs of the monitor and before it deletes the monitor. That it
happens only then is what `Custody` comes to, and that it does happen then is what the name of the
job comes to.
-/

namespace TraceWatch

namespace Site

variable {s₀ s : Site} {es : List Event} {spec : JobSpec} {job : JobRef}

/-- In the end no stored run bears the name of the job, and the plane has not been told to delete
it. -/
def HasLost (s : Site) (spec : JobSpec) (job : JobRef) (es : List Event) : Prop :=
  (∀ r ∈ s.commons.store.runs, r.jobName ≠ spec.name) ∧ ¬ HasDeleted spec job es

/-- No other job goes by this name: no run of it is there at the beginning, only one is accepted,
and the plane refers to jobs by their names. -/
structure IsAlone (s₀ : Site) (name : String) (es : List Event) : Prop where
  runs : ∀ r ∈ s₀.commons.store.runs, r.jobName ≠ name
  once : es.countP (Event.accepts name) ≤ 1
  names : PlaneNames es

instance (s : Site) (spec : JobSpec) (job : JobRef) (es : List Event) :
    Decidable (s.HasLost spec job es) := inferInstanceAs (Decidable (_ ∧ _))

/-- When every task is over, every task that is seen is settled. -/
theorem SeenAs.isSettled {g : Scene} (h : s.SeenAs g) (hover : ∀ task ∈ s.tasks, task.IsOver)
    (i : Nat) : (g.phase i).IsSettled ∨ (g.phase i).MayHalt := by
  by_cases hlt : i < s.tasks.length
  · have htask : s.tasks[i]? = some ⟨s.tasks[i].activity, s.tasks[i].rest⟩ :=
      List.getElem?_eq_getElem hlt
    have hfollows := h.follows i _ _ htask
    rcases hover _ (List.getElem_mem hlt) with hhalt | ⟨result, hdone⟩
    · rw [hhalt] at hfollows
      exact .inr hfollows
    · rw [hdone] at hfollows
      exact .inl (Activity.MayEnd.isSettled hfollows)
  · rw [h.waiting i (Nat.le_of_not_lt hlt)]
    exact .inl trivial

/-- When a job is lost. Take any history of a fresh site in which everything that has begun is
over, and a job that the plane has accepted. The job is lost only if its run has been recorded, and
then its monitor has been deleted before any deletion listed the run. And if no other job goes by
the name, it is lost whenever that happens. -/
theorem job_lost_iff_overtaken (hfresh : s₀.IsFresh) (h : s₀.History es s)
    (hover : ∀ task ∈ s.tasks, task.IsOver) (haccepted : HasAccepted spec job es) :
    (s.HasLost spec job es → Overtaken spec es) ∧
      (s₀.IsAlone spec.name es → Overtaken spec es → s.HasLost spec job es) := by
  obtain ⟨g, hg, hseen⟩ := h.exists_scene hfresh.tasks
  refine ⟨fun ⟨hruns, hdeleted⟩ => ?_, fun ⟨hruns, honce, hnames⟩ hovertaken => ?_⟩
  · obtain ⟨home, hid⟩ := Identities.start hfresh
    obtain ⟨home', -, -, hcustody⟩ := hg.custody hid
    rcases (hcustody spec job haccepted).settled (hseen.isSettled hover) with
      ⟨r, hr, hname⟩ | hdelete | hovertaken
    · rw [hseen.commons] at hr
      exact absurd hname (hruns r hr)
    · exact absurd hdelete hdeleted
    · exact hovertaken
  · have hrecorded := hg.recorded_of_overtaken hruns hnames honce hovertaken
    refine ⟨fun r hr hname => ?_, fun ⟨e, he, hdeletes⟩ => ?_⟩
    · exact hrecorded.stored r (by rwa [hseen.commons]) hname
    · obtain ⟨i, a, ref, answer, rfl, href⟩ := Event.of_deletes hdeletes
      refine hrecorded.undeleted i a ref answer he ?_
      rcases href with rfl | rfl
      · obtain ⟨e', he', heq⟩ := haccepted
        exact hnames e' he' _ heq
      · rfl

/-- A deletion lists the runs of a monitor, a cycle carries it out, and the deletion goes on. -/
def overtaking : List Turn :=
  Turn.alone (.delete "acme" "tone") 0 2 ++ Turn.alone (.cycle "evaluation") 1 16 ++ [.task 0]

/-- Of a job whose run is recorded after a deletion has listed the runs. -/
theorem job_lost_iff_overtaken_overtaking :
    let m := Monitor.hourly 1000 "tone" ⟨3600, 0⟩
    let x : Assignment := ⟨"evaluation", "acme", m, ⟨⟨0, 0⟩, ⟨3520, 0⟩⟩, m.evaluators⟩
    let spec := x.spec ⟨BitVec.ofNat 128 (2 ^ 96)⟩
    let job := JobRef.run "acme" spec.name
    let s := (holding [m] ⟨3700, 0⟩).after .accepting overtaking
    (∀ task ∈ s.2.tasks, task.IsOver) ∧ HasAccepted spec job s.1 ∧
      (holding [m] ⟨3700, 0⟩).IsAlone spec.name s.1 ∧ Overtaken spec s.1 ∧
      s.2.HasLost spec job s.1 := by
  intro m x spec job s
  have hover : ∀ task ∈ s.2.tasks, task.IsOver := by decide +kernel
  have haccepted : HasAccepted spec job s.1 := by decide +kernel
  have halone : (holding [m] ⟨3700, 0⟩).IsAlone spec.name s.1 :=
    ⟨by decide +kernel, by decide +kernel, by unfold PlaneNames; decide +kernel⟩
  have hhistory : (holding [m] ⟨3700, 0⟩).History s.1 s.2 := history_after (by decide +kernel)
  have hlost := job_lost_iff_overtaken (holding_isFresh (by decide) _) hhistory hover haccepted
  have hovertaken : Overtaken spec s.1 := hlost.1 (by decide +kernel)
  exact ⟨hover, haccepted, halone, hovertaken, hlost.2 halone hovertaken⟩

end Site

end TraceWatch
