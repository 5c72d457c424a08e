import TraceWatch.Proofs.Schedule.Recall
import TraceWatch.Proofs.System.Replay
import TraceWatch.Proofs.Text.Uuid

/-!
# Monitors taken off their schedule

A cycle works with what was due when it asked, and asks only once. So a monitor that is stopped or
deleted may still be submitted by the cycle that had been told of it before, but by no other, and
not twice: `Site.submissions_after_withdrawal`. The invariant is `Withdrawn`.
-/

namespace TraceWatch

/-! ## Withdrawals, submissions and resumptions -/

/-- The activity stops or deletes the monitor of an organization with a name. -/
def Activity.Withdraws (org name : String) : Activity → Prop
  | stop org' name' | delete org' name' => org' = org ∧ name' = name
  | _ => False

instance (org name : String) : (a : Activity) → Decidable (a.Withdraws org name)
  | .stop _ _ | .delete _ _ => inferInstanceAs (Decidable (_ ∧ _))
  | .cycle _ | .create _ _ _ | .get _ _ | .list _ _ | .update _ _ _ | .start _ _ | .runs _ _ _
  | .rerun _ _ _ _ | .logs _ _ _ => .isFalse id

namespace Event

/-- Whether a cycle begins a submission for the monitor. -/
def submitsFor (id : Uuid) : Event → Bool
  | call _ (.cycle _) (.plane (.submit spec)) _ => spec.parameters.monitorId = id.render
  | _ => false

/-- Whether the monitor is put back on its schedule. -/
def resumes (id : Uuid) : Event → Bool
  | call _ _ (.store (.resume id' _)) (.ok true) => id' = id
  | _ => false

/-- What begins a submission for a monitor is a cycle that submits a job of it. -/
theorem of_submitsFor {id : Uuid} {e : Event} (h : e.submitsFor id = true) :
    ∃ k template spec answer, e = call k (.cycle template) (.plane (.submit spec)) answer ∧
      spec.parameters.monitorId = id.render := by
  unfold submitsFor at h
  split at h
  · exact ⟨_, _, _, _, rfl, by simpa using h⟩
  · cases h

end Event

/-- How many submissions for the monitor cycles have begun. -/
def submissions (id : Uuid) (es : List Event) : Nat := es.countP (Event.submitsFor id)

theorem submissions_concat (id : Uuid) (es : List Event) (e : Event) :
    submissions id (es ++ [e]) = submissions id es + if e.submitsFor id then 1 else 0 := by
  simp [submissions, List.countP_append, List.countP_cons]

/-! ## The invariant -/

/-- Cycles begin at most one submission for the monitor afterwards, and only a cycle that has been
told before that the monitor is due. -/
structure Belated (id : Uuid) (before after : List Event) : Prop where
  atMostOne : submissions id after ≤ 1
  listed : ∀ e ∈ after, e.submitsFor id = true → ∃ k template c answer m,
    e = .call k (.cycle template) c answer ∧ m.id = id ∧ HasListed k m before

/-- A monitor has been taken off its schedule, or deleted. A cycle that has still to submit a job of
it has been told of it before, and then none has been submitted since. -/
structure Withdrawn (id : Uuid) (before after : List Event) (s : Scene) : Prop
    extends Belated id before after where
  issued : id ∈ s.commons.issued
  off : ∀ m ∈ s.commons.store.monitors, m.id = id → m.nextRun = none
  undrawn : ∀ i, (s.phase i).drawn ≠ some id
  pending : ∀ i, ∀ m ∈ (s.phase i).pending, m.id = id →
    submissions id after = 0 ∧ HasListed i m before

section

variable {a : Activity} {φ φ' : Phase} {c : Call} {answer : c.Answer} {w w' : Commons} {k : Nat}
  {id : Uuid}

/-- A cycle that begins a submission for a monitor had to submit a job of it, and then has the rest
left. -/
theorem Passage.submitsFor (h : Passage a φ c answer φ')
    (hsubmits : (Event.call k a c answer).submitsFor id = true) :
    ∃ m, m.id = id ∧ φ.pending = m :: φ'.pending := by
  obtain ⟨_, template, spec, _, heq, hspec⟩ := Event.of_submitsFor hsubmits
  cases heq
  obtain ⟨purpose, x, run, rfl, rfl, hsuits, hafter⟩ := h.submit_inv
  cases purpose with
  | trigger now rest next =>
    refine ⟨x.monitor, Uuid.render_injective hspec, ?_⟩
    rcases hafter with ⟨job, rfl, rfl⟩ | ⟨e, rfl, rfl⟩ <;> rfl
  | initial | rerun => exact False.elim hsuits

/-- A task that takes a monitor off its schedule knows the monitor. Afterwards it has drawn nothing
and has nothing to submit, and the monitor is off its schedule or gone. -/
theorem Passage.withdraws (h : Passage a φ c answer φ') (hw : w.Answers k c answer w')
    (he : (Event.call k a c answer).Withdraws k id) :
    (∃ m ∈ φ.monitors, m.id = id) ∧ φ'.drawn = none ∧ φ'.pending = [] ∧
      ∀ m ∈ w'.store.monitors, m.id = id → m.nextRun = none := by
  cases he with
  | stop =>
    obtain ⟨hdone, rfl⟩ := hw
    refine ⟨?_, ?_, ?_, fun m hm => StoreCall.nextRun_of_suspend hdone.symm hm⟩
    · cases h with
      | read hread => cases hread
      | stop => exact ⟨_, .head _, rfl⟩
    · cases h with
      | read hread => cases hread
      | stop => rfl
    · cases h with
      | read hread => cases hread
      | stop => rfl
  | delete =>
    obtain ⟨-, rfl⟩ := hw
    refine ⟨?_, ?_, ?_, fun m hm heq => ?_⟩
    · cases h with
      | read hread => cases hread
      | remove => exact ⟨_, .head _, rfl⟩
    · cases h with
      | read hread => cases hread
      | remove => rfl
    · cases h with
      | read hread => cases hread
      | remove => rfl
    · dsimp only at hm
      exact absurd heq (StoreCall.id_ne_of_mem_delete hm)

end

namespace Withdrawn

variable {w w' : Commons} {g : Nat → Phase} {k : Nat} {a : Activity} {c : Call}
  {answer : c.Answer} {φ : Phase} {id : Uuid} {before after : List Event}

/-- A call other than a resumption leaves the monitor off its schedule. -/
theorem off_of_call (h : Withdrawn id before after ⟨w, g⟩) (hpassage : Passage a (g k) c answer φ)
    (hw : w.Answers k c answer w') (hresume : (Event.call k a c answer).resumes id = false)
    {m' : Monitor} (hm' : m' ∈ w'.store.monitors) (heq : m'.id = id) : m'.nextRun = none := by
  by_cases hadvance : ∃ next, c = .store (.advance id next)
  · obtain ⟨next, rfl⟩ := hadvance
    rw [hw.2] at hm'
    dsimp only at hm'
    rw [StoreCall.advance_of_suspended h.off] at hm'
    exact h.off m' hm' heq
  by_cases hresumes : ∃ next, c = .store (.resume id next)
  · obtain ⟨next, rfl⟩ := hresumes
    have hnot : answer ≠ .ok true := by
      rintro rfl
      simp [Event.resumes] at hresume
    rw [hw.2] at hm'
    dsimp only at hm'
    rw [StoreCall.resume_of_ne (hw.1 ▸ hnot)] at hm'
    exact h.off m' hm' heq
  rcases hw.mem_monitors hm' with rfl | ⟨m, hm, rfl | ⟨d, rfl, hrewrites⟩⟩
  · obtain ⟨hdrafted, -⟩ := hpassage.createMonitor
    refine absurd ?_ (h.undrawn k)
    simp only [hdrafted, Phase.drawn, heq]
  · exact h.off m' hm heq
  · have hid : m.id = id := hrewrites.id_eq.symm.trans heq
    have hoff : m.nextRun = none := h.off m hm hid
    cases hrewrites with
    | same | definition => exact hoff
    | suspend => rfl
    | advance => exact absurd ⟨_, by rw [hid]⟩ hadvance
    | resume => exact absurd ⟨_, by rw [hid]⟩ hresumes

/-- A cycle that begins a submission for the monitor is the only one that had to, and none has to
afterwards. -/
theorem spent (h : Withdrawn id before after ⟨w, g⟩) (horderly : Scene.Orderly ⟨w, g⟩)
    (hpassage : Passage a (g k) c answer φ)
    (hsubmits : (Event.call k a c answer).submitsFor id = true) :
    submissions id after = 0 ∧ (∃ m, m.id = id ∧ HasListed k m before) ∧
      ∀ i, ∀ m ∈ (Function.update g k φ i).pending, m.id ≠ id := by
  obtain ⟨m, rfl, hpending⟩ := hpassage.submitsFor hsubmits
  have hm : m ∈ (g k).pending := hpending ▸ .head _
  obtain ⟨hnone, hlisted⟩ := h.pending k m hm rfl
  refine ⟨hnone, ⟨m, rfl, hlisted⟩, fun i d hd heq => ?_⟩
  rcases Phase.of_update (d ∈ ·.pending) hd with ⟨rfl, hφ⟩ | ⟨hik, hd⟩
  · have hnodup : ((g i).pending.map Monitor.id).Nodup := horderly.pending i
    rw [hpending, List.map_cons, List.nodup_cons] at hnodup
    exact hnodup.1 (heq ▸ List.mem_map_of_mem hφ)
  · -- another task with jobs to submit would be under the lock as well
    exact hik (horderly.exclusive.eq (i := i) (j := k) (Phase.holdsLock_of_pending hd)
      (Phase.holdsLock_of_pending hm))

/-- Every call but a resumption leaves the monitor withdrawn. -/
theorem call (h : Withdrawn id before after ⟨w, g⟩) (horderly : Scene.Orderly ⟨w, g⟩)
    (hpassage : Passage a (g k) c answer φ) (hw : w.Answers k c answer w')
    (hresume : (Event.call k a c answer).resumes id = false) :
    Withdrawn id before (after ++ [.call k a c answer]) ⟨w', Function.update g k φ⟩ := by
  have undrawn : ∀ i, (Function.update g k φ i).drawn ≠ some id := by
    intro i hdrawn
    rcases Phase.of_update (·.drawn = some id) hdrawn with ⟨rfl, hφ⟩ | ⟨-, hdrawn⟩
    · rcases hpassage.drawn hw hφ with hold | ⟨hfresh, -⟩
      · exact h.undrawn i hold
      · exact hfresh h.issued
    · exact h.undrawn i hdrawn
  by_cases hsubmits : (Event.call k a c answer).submitsFor id = true
  · obtain ⟨hnone, ⟨m, hm, hlisted⟩, hspent⟩ := h.spent horderly hpassage hsubmits
    have hone : submissions id (after ++ [.call k a c answer]) = 1 := by
      rw [submissions_concat, if_pos hsubmits, hnone]
    refine ⟨⟨Nat.le_of_eq hone, fun e he hsubmit => ?_⟩, hw.issued_mono h.issued,
      fun m' => h.off_of_call hpassage hw hresume, undrawn,
      fun i d hd heq => absurd heq (hspent i d hd)⟩
    rcases List.mem_append.1 he with he | he
    · exact h.listed e he hsubmit
    · obtain rfl := List.mem_singleton.1 he
      obtain ⟨_, template, spec, _, heq, -⟩ := Event.of_submitsFor hsubmits
      cases heq
      exact ⟨k, template, _, _, m, rfl, hm, hlisted⟩
  · have hsame : submissions id (after ++ [.call k a c answer]) = submissions id after := by
      rw [submissions_concat, if_neg hsubmits, Nat.add_zero]
    refine ⟨⟨hsame ▸ h.atMostOne, fun e he hsubmit => ?_⟩, hw.issued_mono h.issued,
      fun m' => h.off_of_call hpassage hw hresume, undrawn, fun i m hm heq => ?_⟩
    · rcases List.mem_append.1 he with he | he
      · exact h.listed e he hsubmit
      · obtain rfl := List.mem_singleton.1 he
        exact absurd hsubmit hsubmits
    · rw [hsame]
      rcases Phase.of_update (m ∈ ·.pending) hm with ⟨rfl, hφ⟩ | ⟨-, hm⟩
      · rcases hpassage.pending (i := i) hw hφ with hold | ⟨-, hstored, hdue⟩
        · exact h.pending i m hold heq
        · -- the monitor is not due any more
          rw [h.off m hstored heq] at hdue
          cases hdue
      · exact h.pending i m hm heq

/-- The monitor stays withdrawn while the scene rests. -/
theorem rests {s s' : Scene} {e : Event} (h : Withdrawn id before after s) (hrests : s.Rests s')
    (he : ∀ k a c answer, e ≠ .call k a c answer) : Withdrawn id before (after ++ [e]) s' := by
  have hnot : ¬ e.submitsFor id = true := by
    intro hsubmits
    obtain ⟨k, template, spec, answer, rfl, -⟩ := Event.of_submitsFor hsubmits
    exact he _ _ _ _ rfl
  have hsame : submissions id (after ++ [e]) = submissions id after := by
    rw [submissions_concat, if_neg hnot, Nat.add_zero]
  refine ⟨⟨hsame ▸ h.atMostOne, fun e' he' hsubmit => ?_⟩, hrests.issued ▸ h.issued,
    hrests.store ▸ h.off, fun i hdrawn => ?_, fun i m hm heq => ?_⟩
  · rcases List.mem_append.1 he' with he' | he'
    · exact h.listed e' he' hsubmit
    · obtain rfl := List.mem_singleton.1 he'
      exact absurd hsubmit hnot
  · exact h.undrawn i (hrests.of_phase (P := (·.drawn = some id)) nofun hdrawn)
  · rw [hsame]
    exact h.pending i m (hrests.of_phase (P := (m ∈ ·.pending)) List.not_mem_nil hm) heq

/-- The event that takes a monitor off its schedule leaves it withdrawn. -/
theorem of_withdraws {s s' : Scene} {e : Event} {i : Nat} (hstep : s.Step e s')
    (he : e.Withdraws i id) (horderly : s.Orderly) (hrecalls : ∀ j, (s.phase j).Recalls j before) :
    Withdrawn id before [] s' := by
  obtain ⟨home, hid⟩ := horderly.identities
  have hcall : ∃ a c answer, e = .call i a c answer := by
    cases he <;> exact ⟨_, _, _, rfl⟩
  obtain ⟨a, c, answer, rfl⟩ := hcall
  cases hstep with
  | @call w w' g _ _ _ _ φ hpassage hw =>
    obtain ⟨⟨m, hm, rfl⟩, hdrawn, hpending, hoff⟩ := hpassage.withdraws hw he
    have hissued : m.id ∈ w'.issued := hw.issued_mono (hid.known i m hm).1
    refine ⟨⟨Nat.zero_le _, fun e he => absurd he List.not_mem_nil⟩, hissued, hoff, fun j hj => ?_,
      fun j d hd heq => ⟨rfl, ?_⟩⟩
    · rcases Phase.of_update (·.drawn = some m.id) hj with ⟨-, hφ⟩ | ⟨hji, hj⟩
      · rw [hdrawn] at hφ
        cases hφ
      · -- what another task has drawn is not known to this one
        exact hji (hid.secret j i _ hj m hm rfl)
    · rcases Phase.of_update (d ∈ ·.pending) hd with ⟨-, hφ⟩ | ⟨-, hd⟩
      · rw [hpending] at hφ
        exact absurd hφ List.not_mem_nil
      · exact (hrecalls j).listed d hd

end Withdrawn

/-- As long as the monitor is not put back on its schedule, it stays withdrawn. -/
theorem Scene.History.withdrawn {s s' : Scene} {id : Uuid} {before after : List Event}
    (h : s.History after s') (horderly : s.Orderly) (hs : Withdrawn id before [] s)
    (hresume : ∀ e ∈ after, e.resumes id = false) : Withdrawn id before after s' := by
  suffices hall : s'.Orderly ∧ Withdrawn id before after s' from hall.2
  induction h with
  | nil => exact ⟨horderly, hs⟩
  | @snoc es e s₁ s₂ _ hstep ih =>
    obtain ⟨horderly, hs⟩ := ih fun e he => hresume e (List.mem_append_left _ he)
    refine ⟨horderly.step hstep, ?_⟩
    rcases hstep.call_or_rests with ⟨k, a, c, answer, rfl⟩ | ⟨hother, hrests⟩
    · cases hstep with
      | call hpassage hw =>
        exact hs.call horderly hpassage hw (hresume _ (List.mem_append_right _ (.head _)))
    · exact hs.rests hrests hother

/-! ## The statement -/

namespace Site

variable {s₀ s : Site} {es : List Event} {task : Task} {j : Nat} {org name : String}

/-- A task that has stopped or deleted a monitor has found it by its name before and has taken it
off its schedule. -/
theorem SeenAs.exists_withdrawn {g : Scene} (h : s.SeenAs g) (hj : s.tasks[j]? = some task)
    (ha : task.activity.Withdraws org name) (hok : task.HasSucceeded) :
    ∃ m, (g.phase j).withdrawn = some m ∧ m.org = org ∧ m.name = name := by
  obtain ⟨a, rest⟩ := task
  obtain ⟨result, rfl⟩ : ∃ result : a.Result, rest = .done (.ok result) := hok
  have hend : a.MayEnd (.ok result) (g.phase j) := h.follows j a _ hj
  cases a with
  | stop | delete =>
    obtain ⟨rfl, rfl⟩ := ha
    obtain ⟨m, hphase, horg, hname⟩ := hend
    exact ⟨m, by rw [hphase]; rfl, horg, hname⟩
  | _ => exact False.elim ha

/-- A stop or a deletion reaches every cycle that has not been told of the monitor. A task that has
stopped or deleted a monitor has found it by its name and then taken it off its schedule. From there
on, and as long as the monitor is not put back, cycles begin at most one submission for it, and only
a cycle that had been told of it before. -/
theorem submissions_after_withdrawal (hfresh : s₀.IsFresh) (h : s₀.History es s)
    (hj : s.tasks[j]? = some task) (ha : task.activity.Withdraws org name)
    (hok : task.HasSucceeded) :
    ∃ m es₁ e es₂, es = es₁ ++ e :: es₂ ∧ e.Withdraws j m.id ∧ HasFound j m es₁ ∧ m.org = org ∧
      m.name = name ∧ ∀ es₃, es₃ <+: es₂ → (∀ e ∈ es₃, e.resumes m.id = false) →
        Belated m.id es₁ es₃ := by
  obtain ⟨g, hg, hseen⟩ := h.exists_scene hfresh.tasks
  obtain ⟨m, hphase, horg, hname⟩ := hseen.exists_withdrawn hj ha hok
  obtain ⟨es₁, e, es₂, rfl, hwithdraws, hfound⟩ := (hg.recalls j).withdrawn m hphase
  refine ⟨m, es₁, e, es₂, rfl, hwithdraws, hfound, horg, hname, ?_⟩
  rintro es₃ ⟨es₄, rfl⟩ hresume
  -- the scene before the withdrawal, after it, and when `es₃` has happened
  obtain ⟨g₁, hbefore, hrest⟩ := hg.split
  rw [← List.singleton_append] at hrest
  obtain ⟨g₂, hwithdrawal, hrest⟩ := hrest.split
  obtain ⟨g₃, hafter, -⟩ := hrest.split
  have hstep := hwithdrawal.of_singleton
  have horderly : g₁.Orderly := hbefore.preserves Scene.Orderly.step (.start hfresh)
  exact (hafter.withdrawn (horderly.step hstep)
    (.of_withdraws hstep hwithdraws horderly hbefore.recalls) hresume).toBelated

/-- A cycle has been told of two due monitors and submitted the first when the second is stopped;
then it goes on. -/
def stopBetween : List Turn :=
  Turn.alone (.cycle "evaluation") 0 6 ++ Turn.alone (.stop "acme" "care") 1 4 ++
    List.replicate 8 (.task 0)

/-- Of a stop in the middle of a cycle that was told of the monitor. -/
theorem submissions_after_withdrawal_stopBetween :
    let s := (holding [.hourly 1000 "tone" ⟨3600, 0⟩, .hourly 1001 "care" ⟨3601, 0⟩]
      ⟨3700, 0⟩).after .accepting stopBetween
    submissions ⟨BitVec.ofNat 128 1001⟩ s.1 = 1 ∧
      ∃ m es₁ e es₂, s.1 = es₁ ++ e :: es₂ ∧ e.Withdraws 1 m.id ∧ HasFound 1 m es₁ ∧
        m.org = "acme" ∧ m.name = "care" ∧ ∀ es₃, es₃ <+: es₂ →
          (∀ e ∈ es₃, e.resumes m.id = false) → Belated m.id es₁ es₃ := by
  refine ⟨by decide +kernel, ?_⟩
  exact submissions_after_withdrawal (holding_isFresh (by decide) _)
    (history_after (by decide +kernel)) (List.getElem?_eq_getElem (by decide +kernel))
    (by decide +kernel) (by decide +kernel)

/-- A stop that has returned does not keep the cycle that was told of two monitors from submitting
the second, which nobody puts back on its schedule. And a cycle may submit a monitor before the
start that puts it back has returned. -/
theorem submission_after_stop :
    (let s₀ := holding [.hourly 1000 "tone" ⟨3600, 0⟩, .hourly 1001 "care" ⟨3601, 0⟩] ⟨3700, 0⟩
     let s₁ := s₀.after .accepting
      (Turn.alone (.cycle "evaluation") 0 6 ++ Turn.alone (.stop "acme" "care") 1 4)
     let s₂ := s₁.2.after .accepting (List.replicate 8 (.task 0))
     s₀.IsFresh ∧ s₀.History s₁.1 s₁.2 ∧ s₁.2.History s₂.1 s₂.2 ∧
      (∃ task ∈ s₁.2.tasks, task.activity.Withdraws "acme" "care" ∧ task.HasSucceeded) ∧
      (∀ e ∈ s₁.1 ++ s₂.1, e.resumes ⟨BitVec.ofNat 128 1001⟩ = false) ∧
      submissions ⟨BitVec.ofNat 128 1001⟩ s₂.1 = 1) ∧
    (let s₀ := holding [.hourly 1000 "tone" ⟨3600, 0⟩] ⟨3700, 0⟩
     let s₁ := s₀.after .accepting (Turn.alone (.stop "acme" "tone") 0 4)
     let s₂ := s₁.2.after .accepting
      (Turn.alone (.start "acme" "tone") 1 3 ++ Turn.alone (.cycle "evaluation") 2 6)
     s₀.IsFresh ∧ s₀.History s₁.1 s₁.2 ∧ s₁.2.History s₂.1 s₂.2 ∧
      (∃ task ∈ s₁.2.tasks, task.activity.Withdraws "acme" "tone" ∧ task.HasSucceeded) ∧
      (∀ task ∈ s₂.2.tasks, task.HasSucceeded → task.activity.Withdraws "acme" "tone") ∧
      submissions ⟨BitVec.ofNat 128 1000⟩ s₂.1 = 1) := by
  refine ⟨⟨holding_isFresh (by decide) _, history_after ?_, history_after ?_, ?_, ?_, ?_⟩,
    holding_isFresh (by decide) _, history_after ?_, history_after ?_, ?_, ?_, ?_⟩
  all_goals decide +kernel

end Site

end TraceWatch
