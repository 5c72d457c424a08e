import TraceWatch.Proofs.Schedule.Contest
import TraceWatch.Proofs.Schedule.Planning

/-!
# Starts that are overridden

A start puts a monitor back on its schedule, due at once. A cycle moves a schedule on if there is
one: it does not ask whether that is still the schedule it planned from. So a start stands as long
as no cycle comes to move the schedule, and any cycle that does overrides it, also one that was told
of the monitor before the monitor was stopped and started again: `Site.schedule_after_start`.
-/

namespace TraceWatch

/-- The instant at which a monitor is due that was due at `t` before these events, if it has been on
its schedule all the time and only cycles have moved it. -/
def lastMove (id : Uuid) (t : Timestamp) (es : List Event) : Timestamp :=
  (es.filterMap (Event.movedTo? id)).getLast?.getD t

theorem lastMove_concat (id : Uuid) (t : Timestamp) (es : List Event) (e : Event) :
    lastMove id t (es ++ [e]) = (e.movedTo? id).getD (lastMove id t es) := by
  rw [lastMove, lastMove, List.filterMap_append]
  cases h : e.movedTo? id <;> simp [h]

namespace Scene

variable {s s' : Scene} {e : Event} {es : List Event} {id : Uuid} {k : Nat} {t : Timestamp}

/-- Some monitor was stored under the identifier, and if it still is, it is due at the instant. -/
abbrev DueAt (s : Scene) (id : Uuid) (t : Timestamp) : Prop :=
  s.Stores id fun m => m.nextRun = some t

/-- A start leaves its monitor due at the instant that it gives. -/
theorem Step.dueAt {a : Activity} (h : Step s (.call k a (.store (.resume id t)) (.ok true)) s')
    (hspent : s.Spent id) : s'.DueAt id t := by
  refine ⟨hspent.step h, fun m hm heq => ?_⟩
  cases h with
  | call _ hw =>
    obtain ⟨hanswer, rfl⟩ := hw
    exact StoreCall.nextRun_of_reschedule (Except.ok.inj hanswer).symm hm heq

namespace DueAt

/-- Unless the monitor is switched it stays due then, or it is due where a cycle moves it. -/
theorem step (h : s.DueAt id t) (hs : s.Reachable) (hstep : Step s e s')
    (hnot : e.isSwitch id = false) : s'.DueAt id ((e.movedTo? id).getD t) :=
  Stores.step h hstep fun m hm m' hm' heq hid ht => by
    subst hid
    exact hstep.nextRun_eq hs hm hm' heq hnot ht

/-- Until it is switched it is due where the last cycle has moved it. -/
theorem history (h : s.DueAt id t) (hs : s.Reachable) (hes : s.History es s')
    (hnot : ∀ e ∈ es, e.isSwitch id = false) : s'.DueAt id (lastMove id t es) := by
  induction hes with
  | nil => exact h
  | snoc hbefore hstep ih =>
    rw [lastMove_concat]
    exact step (ih fun e he => hnot e (List.mem_append_left _ he)) (hs.history hbefore) hstep
      (hnot _ (List.mem_append_right _ (.head _)))

end DueAt

/-- A cycle moves a schedule to where it has planned, for a monitor of which it had been told, and
after it has recorded the window of the plan. -/
theorem History.planned_of_move {w : Commons} (h : (ofCommons w).History es s) {a : Activity}
    {answer : Except StoreError Bool}
    (hstep : Step s (.call k a (.store (.advance id t)) answer) s') :
    ∃ d window, d.id = id ∧ HasPlanned k d ⟨window, t⟩ es ∧
      (scheduledWindows id es).getLast? = some window := by
  cases hstep with
  | call hpassage _ =>
    obtain ⟨now, rest, d, hphase, rfl, -⟩ := hpassage.advance_inv
    obtain ⟨window, hplanned, hlast⟩ := (h.plans k).moving (d, t) (by dsimp only; rw [hphase]; rfl)
    exact ⟨d, window, rfl, hplanned, hlast⟩

end Scene

namespace Site

variable {s₀ s : Site} {es : List Event} {k : Nat} {task : Task} {org name : String}

/-- The scene at the beginning of a new site is reachable. -/
theorem IsNew.scene_reachable (h : s₀.IsNew) : (Scene.ofCommons s₀.commons).Reachable :=
  ⟨_, [], h.store, h.holder, .nil⟩

/-- `es` has happened, and the part `since` of it since a start has left the monitor due at `t`.
Until the monitor is switched again, it is due where the last cycle has moved it, or at `t` if none
has. A cycle moves it to where it has planned, after the copy of the monitor that it was told is
due. -/
structure FollowsStart (s : Site) (m : Monitor) (t : Timestamp) (es since : List Event) :
    Prop where
  due : ∀ es' s', s.History es' s' → (∀ e ∈ since ++ es', e.isSwitch m.id = false) →
    ∀ m' ∈ s'.commons.store.monitors, m'.id = m.id →
      m'.nextRun = some (lastMove m.id t (since ++ es'))
  planned : ∀ es' s', s.History es' s' → ∀ es₁ j a next answer es₂,
    es ++ es' = es₁ ++ .call j a (.store (.advance m.id next)) answer :: es₂ →
      ∃ d window, d.id = m.id ∧ HasPlanned j d ⟨window, next⟩ es₁

/-- A start that has succeeded has put a monitor of its name back on its schedule. Until the monitor
is stopped or started again, it stands exactly as long as no cycle comes to move the schedule: each
that does overrides it with its own plan, whether it was told of the monitor after the start or
before the monitor was stopped. -/
theorem schedule_after_start (hnew : s₀.IsNew) (h : s₀.History es s)
    (htask : s.tasks[k]? = some task) (ha : task.activity = .start org name)
    (hok : task.HasSucceeded) :
    ∃ m t es₁ es₂, m.org = org ∧ m.name = name ∧
      es = es₁ ++ .call k (.start org name) (.store (.resume m.id t)) (.ok true) :: es₂ ∧
      s.FollowsStart m t es es₂ := by
  obtain ⟨g, hg, hseen⟩ := h.exists_scene hnew.tasks
  obtain ⟨m₁, rfl, rfl, e, he, hswitches₁⟩ := h.exists_switch hg (hnew.tasks ▸ Nat.zero_le k) htask
    (show task.activity = Switch.on.activity org name from ha) hok
  obtain ⟨m, es₁, u, u', es₂, horg, hname, heq, hswitches, hu, hm, hstep, hafter⟩ :=
    hg.of_switch hnew.scene_reachable he hswitches₁
  cases hswitches with
  | on t =>
    rw [← horg, ← hname]
    refine ⟨m, t, es₁, es₂, rfl, rfl, heq, ⟨fun es' s' hes' hnot => ?_, ?_⟩⟩
    · obtain ⟨g', hg', hseen'⟩ := hseen.history hes'
      rw [← hseen'.commons]
      have hdue := hstep.dueAt (hu.spent_of_monitor ⟨m, hm, rfl⟩)
      exact (Scene.DueAt.history hdue (hu.step hstep) (hafter.append hg') hnot).stored
    · intro es' s' hes' es₁ j a next answer es₂ heq
      obtain ⟨g', hg', -⟩ := hseen.history hes'
      have hall := hg.append hg'
      rw [heq] at hall
      obtain ⟨v, v', hbefore, hmove, -⟩ := hall.split_cons
      obtain ⟨d, window, hd, hplanned, -⟩ := hbefore.planned_of_move hmove
      exact ⟨d, window, hd, hplanned⟩

/-- A cycle has a job of a monitor accepted, and then the monitor is stopped and started again. -/
def restarted : List Turn :=
  Turn.alone (.create "evaluation" "acme" (.tone "tone" none)) 0 6 ++ .clock ⟨7201, 0⟩ ::
    Turn.alone (.cycle "evaluation") 1 6 ++ Turn.alone (.stop "acme" "tone") 2 4 ++
    .clock ⟨7300, 0⟩ :: Turn.alone (.start "acme" "tone") 3 4

/-- Of a start that the cycle overrides which was under way before. -/
theorem schedule_after_start_restarted :
    let s := (holding [] ⟨7200, 0⟩).after .accepting restarted
    let s' := s.2.after .accepting (List.replicate 4 (.task 1))
    s.2.commons.store.monitors.map Monitor.nextRun = [some ⟨7300, 0⟩] ∧
      s'.2.commons.store.monitors.map Monitor.nextRun = [some ⟨10621, 0⟩] ∧
      s.2.History s'.1 s'.2 ∧
      ∃ m t es₁ es₂, m.org = "acme" ∧ m.name = "tone" ∧
        s.1 = es₁ ++ .call 3 (.start "acme" "tone") (.store (.resume m.id t)) (.ok true) :: es₂ ∧
        s.2.FollowsStart m t s.1 es₂ := by
  refine ⟨by decide +kernel, by decide +kernel, history_after (by decide +kernel), ?_⟩
  exact schedule_after_start ⟨rfl, rfl, rfl⟩ (history_after (by decide +kernel))
    (List.getElem?_eq_getElem (by decide +kernel)) rfl (by decide +kernel)

end Site

end TraceWatch
