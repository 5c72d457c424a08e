import TraceWatch.Proofs.Schedule.Override

/-!
# Where scheduled windows meet when an interval changes

The window of a scheduled run starts one interval before the instant at which its monitor is due,
and that instant is one interval after the end of the window before it. An edit changes the
interval and leaves the instant. So two windows meet only if the interval that the second is planned
with is the one that the first was planned with; otherwise they overlap, or trace time between them
is left out: `Site.next_window_start`. The invariant is `Seam`: whoever is about to submit the
monitor was told of it since, and told that it is due where its schedule was moved.
-/

namespace TraceWatch

open Timestamp

/-- The cycle has been told that the monitor is due, and since when. -/
def HasListedDue (k : Nat) (d : Monitor) (t : Timestamp) (es : List Event) : Prop :=
  d.nextRun = some t ∧ HasListed k d es

theorem HasListedDue.concat {k : Nat} {d : Monitor} {t : Timestamp} {es : List Event}
    (h : HasListedDue k d t es) (e : Event) : HasListedDue k d t (es ++ [e]) :=
  ⟨h.1, h.2.concat⟩

/-- The schedule of the monitor has been moved to `next`, and since then these events have happened.
Cycles that have still to submit it, or are about to, have been told of it since then. -/
structure Seam (id : Uuid) (next : Timestamp) (es : List Event) (s : Scene) : Prop where
  due : s.DueAt id next
  still : ∀ k, ∀ p ∈ (s.phase k).move, p.1.id ≠ id
  pending : ∀ k, ∀ d ∈ (s.phase k).pending, d.id = id → HasListedDue k d next es
  planned : ∀ k, ∀ p ∈ (s.phase k).plan, p.1.id = id → HasListedDue k p.1 next es

namespace Seam

variable {s s' : Scene} {e : Event} {es : List Event} {id : Uuid} {next : Timestamp}

/-- It is so once a cycle has moved the schedule. -/
theorem start (hs : s.Reachable) (hspent : s.Spent id) {k : Nat} {a : Activity}
    (hstep : s.Step (.call k a (.store (.advance id next)) (.ok true)) s') :
    Seam id next [] s' := by
  have hspent' := hspent.step hstep
  cases hstep with
  | @call w w' g _ _ _ _ φ hpassage hw =>
    obtain ⟨now, rest, d₀, hphase, hid, rfl⟩ := hpassage.advance_inv
    -- the cycle does not come to the monitor again, and nobody else is under the lock
    have hrest : ∀ d ∈ rest, d.id ≠ id := by
      have hnodup := hs.monitors_nodup k
      dsimp only at hnodup
      rw [hphase] at hnodup
      exact fun d hd heq =>
        (List.nodup_cons.1 hnodup).1 (List.mem_map.2 ⟨d, hd, heq.trans hid⟩)
    have hlock : ∀ j, (g j).HoldsLock → j = k := by
      intro j hj
      refine hs.exclusive.eq (i := j) (j := k) hj ?_
      dsimp only
      rw [hphase]
      trivial
    refine ⟨⟨hspent', fun m' hm' heq => ?_⟩, fun j p hp => ?_, fun j d hd heq => ?_,
      fun j p hp heq => ?_⟩
    · obtain ⟨hanswer, rfl⟩ := hw
      exact StoreCall.nextRun_of_reschedule (Except.ok.inj hanswer).symm hm' heq
    · rcases Phase.of_update (p ∈ ·.move) hp with ⟨-, hφ⟩ | ⟨hjk, hp⟩
      · cases hφ
      · exact absurd (hlock j (Phase.holdsLock_of_move hp)) hjk
    · rcases Phase.of_update (d ∈ ·.pending) hd with ⟨-, hφ⟩ | ⟨hjk, hd⟩
      · exact absurd heq (hrest d hφ)
      · exact absurd (hlock j (Phase.holdsLock_of_pending hd)) hjk
    · rcases Phase.of_update (p ∈ ·.plan) hp with ⟨-, hφ⟩ | ⟨hjk, hp⟩
      · cases hφ
      · exact absurd (hlock j (Phase.holdsLock_of_plan hp)) hjk

/-- A call that neither switches the monitor nor records a window of it leaves it so. -/
theorem call {w w' : Commons} {g : Nat → Phase} {k : Nat} {a : Activity} {c : Call}
    {answer : c.Answer} {φ : Phase} (h : Seam id next es ⟨w, g⟩) (hs : Scene.Reachable ⟨w, g⟩)
    (hpassage : Passage a (g k) c answer φ) (hw : w.Answers k c answer w')
    (hswitch : (Event.call k a c answer).isSwitch id = false)
    (hnone : (Event.call k a c answer).scheduled? id = none) :
    Seam id next (es ++ [.call k a c answer]) ⟨w', Function.update g k φ⟩ := by
  -- nobody is about to move the schedule
  have hmoved : (Event.call k a c answer).movedTo? id = none := by
    by_contra hsome
    obtain ⟨t, ht⟩ := Option.ne_none_iff_exists'.1 hsome
    obtain ⟨_, _, _, heq⟩ := Event.of_movedTo? ht
    cases heq
    obtain ⟨now, rest, d, hphase, hid, -⟩ := hpassage.advance_inv
    refine h.still k (d, t) ?_ hid.symm
    dsimp only
    rw [hphase]
    rfl
  have hdue := Scene.DueAt.step h.due hs (.call hpassage hw) hswitch
  rw [hmoved] at hdue
  -- what the cycle has been told, by this call or before
  have htold : ∀ d ∈ φ.pending, d.id = id →
      HasListedDue k d next (es ++ [.call k a c answer]) := by
    intro d hd heq
    rcases hpassage.pending hw hd with hold | ⟨⟨template, now, due, hlisted, hmem⟩, hstored, -⟩
    · exact (h.pending k d hold heq).concat _
    · exact ⟨h.due.stored d hstored heq, template, now, due, List.mem_append_right _ hlisted, hmem⟩
  refine ⟨hdue, fun j p hp heq => ?_, fun j d hd heq => ?_, fun j p hp heq => ?_⟩
  · rcases Phase.of_update (p ∈ ·.move) hp with ⟨rfl, hφ⟩ | ⟨-, hp⟩
    · rcases hpassage.move (i := j) hφ with ⟨hold, -⟩ | ⟨window, -, hwindow⟩
      · exact h.still j p hold heq
      · rw [heq, hnone] at hwindow
        cases hwindow
    · exact h.still j p hp heq
  · rcases Phase.of_update (d ∈ ·.pending) hd with ⟨rfl, hφ⟩ | ⟨-, hd⟩
    · exact htold d hφ heq
    · exact (h.pending j d hd heq).concat _
  · rcases Phase.of_update (p ∈ ·.plan) hp with ⟨rfl, hφ⟩ | ⟨-, hp⟩
    · rcases hpassage.plan hφ with hold | ⟨hpending, -⟩
      · exact (h.planned j p hold heq).concat _
      · exact (h.pending j p.1 hpending heq).concat _
    · exact (h.planned j p hp heq).concat _

/-- It stays so while the scene rests. -/
theorem rests (h : Seam id next es s) (hs : s.Reachable) (hstep : s.Step e s')
    (hrests : s.Rests s') (hswitch : e.isSwitch id = false)
    (hmoved : e.movedTo? id = none) : Seam id next (es ++ [e]) s' := by
  have hdue := Scene.DueAt.step h.due hs hstep hswitch
  rw [hmoved] at hdue
  refine ⟨hdue, fun j p hp => ?_, fun j d hd heq => ?_, fun j p hp heq => ?_⟩
  · exact h.still j p (hrests.of_phase (P := (p ∈ ·.move)) (fun h => by cases h) hp)
  · have hold := hrests.of_phase (P := (d ∈ ·.pending)) List.not_mem_nil hd
    exact (h.pending j d hold heq).concat e
  · have hold := hrests.of_phase (P := (p ∈ ·.plan)) (fun h => by cases h) hp
    exact (h.planned j p hold heq).concat e

/-- So it is until the monitor is switched or a window of it is recorded. -/
theorem history (h : Seam id next [] s) (hs : s.Reachable) (hes : s.History es s')
    (hswitch : ∀ e ∈ es, e.isSwitch id = false)
    (hnone : ∀ e ∈ es, e.scheduled? id = none) : Seam id next es s' := by
  induction hes with
  | nil => exact h
  | @snoc es e s₁ s₂ hbefore hstep ih =>
    have hseam := ih (fun e he => hswitch e (List.mem_append_left _ he))
      (fun e he => hnone e (List.mem_append_left _ he))
    have hs₁ := hs.history hbefore
    have hlast := List.mem_append_right es (List.mem_singleton_self e)
    rcases hstep.call_or_rests with ⟨k, a, c, answer, rfl⟩ | ⟨hother, hrests⟩
    · cases hstep with
      | call hpassage hw => exact hseam.call hs₁ hpassage hw (hswitch _ hlast) (hnone _ hlast)
    · refine hseam.rests hs₁ hstep hrests (hswitch _ hlast) ?_
      cases e with
      | call => exact absurd rfl (hother _ _ _ _)
      | _ => rfl

end Seam

namespace Scene

variable {s s' : Scene} {k : Nat}

/-- A cycle records the window that it has planned. -/
theorem Step.planned_of_record {template : String} {r : Run} {answer : Except StoreError Unit}
    (h : Step s (.call k (.cycle template) (.store (.createRun r)) answer) s') :
    ∃ d next, d.id = r.monitorId ∧ (d, ⟨r.window, next⟩) ∈ (s.phase k).plan := by
  cases h with
  | call hpassage _ =>
    obtain ⟨purpose, x, run, job, now, hphase, rfl, hsuits, -⟩ := hpassage.createRun
    cases purpose with
    | trigger t rest next =>
      refine ⟨x.monitor, next, rfl, ?_⟩
      dsimp only
      rw [hphase]
      rfl
    | initial | rerun => exact False.elim hsuits

end Scene

namespace Site

variable {s₀ s₁ s₂ s₃ s₄ : Site} {es₁ es₂ : List Event} {e : Event} {m : Monitor} {j : Nat}
  {a : Activity} {next : Timestamp} {window : Window}

/-- Where the next window of a monitor begins, whatever has been edited in the meantime. A cycle
moves the schedule of a stored monitor, by the plan for the last window it recorded, which was made
with an interval `i`. Then the monitor is neither stopped nor started, until with `e` a cycle
records the next scheduled run of it. That cycle was told of the monitor in the meantime, with an
interval `i'`. So the window begins where the last one ended, moved by as much as the interval has
become shorter: exactly there if the interval is the same, later if it is shorter, so that trace
time is left out, and earlier if it is longer. -/
theorem next_window_start (hnew : s₀.IsNew) (h₁ : s₀.History es₁ s₁)
    (hm : m ∈ s₁.commons.store.monitors)
    (hadvance : s₁.Step (.call j a (.store (.advance m.id next)) (.ok true)) s₂)
    (h₂ : s₂.History es₂ s₃) (hrecord : s₃.Step e s₄) (hwindow : e.scheduled? m.id = some window)
    (hclock : s₀.commons.clock.IsProper) (hpunctual : ∀ e ∈ es₁, e.IsPunctual)
    (hswitch : ∀ e ∈ es₂, e.isSwitch m.id = false) (hnone : scheduledWindows m.id es₂ = []) :
    ∃ last d₀ i k d i', (scheduledWindows m.id es₁).getLast? = some last ∧
      HasPlanned j d₀ ⟨last, next⟩ es₁ ∧ d₀.id = m.id ∧ d₀.interval = some i ∧
      next = last.stop.move (minutes i) ∧
      e.caller = some k ∧ HasListed k d es₂ ∧ d.id = m.id ∧ d.interval = some i' ∧
      window.start = last.stop.move (minutes (i - i')) ∧
      (window.start = last.stop ↔ i' = i) ∧ (last.stop < window.start ↔ i' < i) := by
  obtain ⟨k, template, r, rfl, hr⟩ := Event.of_scheduled? (hwindow ▸ Option.some_ne_none _)
  obtain rfl : r.window = window :=
    Option.some.inj ((Event.scheduled?_record hr).symm.trans hwindow)
  obtain ⟨g₁, hg₁, hseen₁⟩ := h₁.exists_scene hnew.tasks
  obtain ⟨g₂, hstep, hseen₂⟩ := hseen₁.step hadvance
  obtain ⟨g₃, hg₃, hseen₃⟩ := hseen₂.history h₂
  obtain ⟨g₄, hlast, -⟩ := hseen₃.step hrecord
  have hu := hnew.scene_reachable.history hg₁
  have hspent : g₁.Spent m.id := hu.spent_of_monitor ⟨m, hseen₁.commons ▸ hm, rfl⟩
  have hseam : Seam m.id next es₂ g₃ :=
    (Seam.start hu hspent hstep).history (hu.step hstep) hg₃ hswitch
      (List.filterMap_eq_nil_iff.1 hnone)
  -- the two plans, and what the second was made for
  obtain ⟨d₀, last, hd₀, hplanned₀, hrecorded⟩ := hg₁.planned_of_move hstep
  obtain ⟨d, t, hd, hplan⟩ := hlast.planned_of_record
  obtain ⟨hnext, hlisted⟩ := hseam.planned k _ hplan (hd.trans hr)
  obtain ⟨now₀, hread₀, hmade₀⟩ := hplanned₀.made
  obtain ⟨now, -, hmade⟩ := ((((hg₁.snoc hstep).append hg₃).plans k).planned _ hplan).made
  obtain ⟨_, i, -, hi⟩ := Plan.exists_of_make hmade₀
  obtain ⟨_, i', -, hi'⟩ := Plan.exists_of_make hmade
  rw [hi] at hmade₀
  rw [hnext, hi'] at hmade
  obtain ⟨second, hstop, hdue, hstart⟩ :=
    Plan.make_seam (hg₁.isProper_of_read hpunctual hclock hread₀) hmade₀ hmade
  dsimp only at hstop hdue hstart
  refine ⟨last, d₀, i, k, d, i', hrecorded, hplanned₀, hd₀, hi, ?_, rfl, hlisted, hd.trans hr, hi',
    ?_, ?_, ?_⟩
  · rw [hstop, move_ofSecond, hdue]
  · rw [hstop, move_ofSecond, hstart]
  · rw [hstop, hstart, ofSecond_inj]
    omega
  · rw [hstop, hstart, ofSecond_lt]
    omega

/-- An hourly monitor is created, and a cycle is about to move its schedule on. -/
def aboutToMove : List Turn :=
  Turn.alone (.create "evaluation" "acme" (.tone "tone" none)) 0 6 ++ .clock ⟨7201, 0⟩ ::
    Turn.alone (.cycle "evaluation") 1 9

/-- The cycle ends, an edit makes the interval ten minutes, and the next cycle is about to record a
run. -/
def shortened : List Turn :=
  List.replicate 5 (.task 1) ++
    Turn.alone (.update "acme" "tone" ⟨none, none, none, some 10⟩) 2 6 ++
    .clock ⟨10621, 0⟩ :: Turn.alone (.cycle "evaluation") 3 7

/-- Of an interval that is shortened between two cycles: the second window begins fifty minutes
after the first has ended. -/
theorem next_window_start_shortened :
    let s₁ := (holding [] ⟨7200, 0⟩).after .accepting aboutToMove
    let s₂ := s₁.2.after .accepting [.task 1]
    let s₃ := s₂.2.after .accepting shortened
    ∃ m ∈ s₁.2.commons.store.monitors, ∃ e s₄, s₃.2.Step e s₄ ∧
      scheduledWindows m.id s₁.1 = [⟨⟨3600, 0⟩, ⟨7021, 0⟩⟩] ∧
      e.scheduled? m.id = some ⟨⟨10021, 0⟩, ⟨10561, 0⟩⟩ ∧
      ∃ last d₀ i k d i', (scheduledWindows m.id s₁.1).getLast? = some last ∧
        HasPlanned 1 d₀ ⟨last, ⟨10621, 0⟩⟩ s₁.1 ∧ d₀.id = m.id ∧ d₀.interval = some i ∧
        ⟨10621, 0⟩ = last.stop.move (minutes i) ∧
        e.caller = some k ∧ HasListed k d s₃.1 ∧ d.id = m.id ∧ d.interval = some i' ∧
        ⟨10021, 0⟩ = last.stop.move (minutes (i - i')) ∧
        ((⟨10021, 0⟩ : Timestamp) = last.stop ↔ i' = i) ∧ (last.stop < ⟨10021, 0⟩ ↔ i' < i) := by
  intro s₁ s₂ s₃
  have hadvance : s₁.2.turn? .accepting (.task 1) =
      some (.call 1 (.cycle "evaluation") (.store (.advance ⟨0⟩ ⟨10621, 0⟩)) (.ok true), s₂.2) :=
    rfl
  obtain ⟨e, s₄, hrecord, hwindow⟩ : ∃ e s₄, s₃.2.Step e s₄ ∧
      e.scheduled? ⟨0⟩ = some ⟨⟨10021, 0⟩, ⟨10561, 0⟩⟩ := by
    have hturn : ((s₃.2.turn? .accepting (.task 3)).map fun p => p.1.scheduled? ⟨0⟩) =
        some (some ⟨⟨10021, 0⟩, ⟨10561, 0⟩⟩) := by decide +kernel
    obtain ⟨⟨e, s₄⟩, hturn, hwindow⟩ := Option.map_eq_some_iff.1 hturn
    exact ⟨e, s₄, step_of_turn? hturn, hwindow⟩
  refine ⟨_, .head _, e, s₄, hrecord, by decide +kernel, hwindow, ?_⟩
  exact next_window_start (m := s₁.2.commons.store.monitors.head (by decide +kernel))
    ⟨rfl, rfl, rfl⟩ (history_after (by decide +kernel)) (.head _) (step_of_turn? hadvance)
    (history_after (by decide +kernel)) hrecord hwindow (by decide) (by decide +kernel)
    (by decide +kernel) (by decide +kernel)

end Site

end TraceWatch
