import TraceWatch.Proofs.Monitors.Creation
import TraceWatch.Proofs.Monitors.WellFormed
import TraceWatch.Proofs.Schedule.Switch

/-!
# Contests

A monitor stays where a switch has taken it until it is switched the other way: every other write
leaves it there, however late it comes (`Scene.Keeps`). So of the stops that contend for a monitor
on its schedule, or the starts for one off it, the first attempt is successful, and no later one;
each contestant that comes too late sees the monitor switched, or is told so by its own attempt.
What has happened until then is `Contested`: nobody has switched the monitor yet, or exactly one
has.
-/

namespace TraceWatch

/-! ## Staying switched -/

namespace Switch

/-- The switch the other way. -/
def opposite : Switch → Switch
  | off => on
  | on => off

variable {sw : Switch} {m : Monitor}

@[simp] theorem opposite_opposite (sw : Switch) : sw.opposite.opposite = sw := by
  cases sw <;> rfl

theorem opposite_isDone : sw.opposite.IsDone m ↔ ¬ sw.IsDone m := by
  cases sw with
  | off => rfl
  | on => exact not_not.symm

end Switch

namespace Scene

/-- Some monitor was stored under the identifier, and if it still is, it is where the switch takes
it. -/
structure Keeps (s : Scene) (sw : Switch) (m : Monitor) : Prop where
  fixes : s.Fixes m.origin
  spent : s.Spent m.id
  stored : ∀ m' ∈ s.commons.store.monitors, m'.id = m.id → sw.IsDone m'

variable {s s' : Scene} {e : Event} {es : List Event} {m m' : Monitor} {k : Nat} {sw : Switch}

/-- A monitor that is stored agrees in what is fixed. -/
theorem Keeps.origin_eq (h : s.Keeps sw m) (hm' : m' ∈ s.commons.store.monitors)
    (heq : m'.id = m.id) : m'.origin = m.origin :=
  h.fixes.known m' (.inl hm') heq

/-- A stored monitor is where one of the switches takes it. -/
theorem Reachable.keeps (hs : s.Reachable) (hm : m ∈ s.commons.store.monitors)
    (hdone : sw.IsDone m) : s.Keeps sw m := by
  refine ⟨hs.fixes m (.inl hm), hs.spent_of_monitor ⟨m, hm, rfl⟩, fun m' hm' heq => ?_⟩
  rwa [List.inj_on_of_nodup_map hs.isConsistent.ids hm' hm heq]

/-- A step with which the monitor is switched leaves it where the switch takes it. -/
theorem Step.keeps (h : Step s e s') (he : e.Switches m k sw) (hfixes : s.Fixes m.origin)
    (hspent : s.Spent m.id) : s'.Keeps sw m :=
  ⟨hfixes.step h, hspent.step h, fun _ hm' heq => h.isDone he hm' heq⟩

namespace Keeps

/-- A step leaves the monitor where it is unless it is switched the other way. -/
theorem step (h : s.Keeps sw m) (hs : s.Reachable) (hstep : Step s e s')
    (he : ∀ k, ¬ e.Switches m k sw.opposite) : s'.Keeps sw m := by
  refine ⟨h.fixes.step hstep, h.spent.step hstep, fun m' hm' heq => ?_⟩
  obtain ⟨m₁, hm₁, heq₁⟩ := h.spent.hasMonitor_of_step hstep ⟨m', hm', heq⟩
  by_contra hnot
  have hbefore : ¬ sw.opposite.IsDone m₁ := fun hdone =>
    Switch.opposite_isDone.1 hdone (h.stored m₁ hm₁ heq₁)
  obtain ⟨k, hswitches⟩ := hstep.switched hs hm₁ hm' (heq.trans heq₁.symm) hbefore
    (Switch.opposite_isDone.2 hnot)
  exact he k (hswitches.of_origin (h.origin_eq hm₁ heq₁).symm)

/-- It stays there as long as it is not switched the other way. -/
theorem history (h : s.Keeps sw m) (hs : s.Reachable) (hes : s.History es s')
    (hother : ∀ e ∈ es, ∀ k, ¬ e.Switches m k sw.opposite) : s'.Keeps sw m :=
  hs.preserves (I := fun s => s.Keeps sw m) (fun hs h hstep he => h.step hs hstep he) hes hother h

end Keeps

/-- A monitor that is switched with an event is one that was stored then. -/
theorem History.of_switch (h : s.History es s') (hs : s.Reachable) (he : e ∈ es)
    (hswitches : e.Switches m k sw) :
    ∃ (m₁ : Monitor) (es₁ : List Event) (u u' : Scene) (es₂ : List Event), m₁.org = m.org ∧
      m₁.name = m.name ∧ es = es₁ ++ e :: es₂ ∧ e.Switches m₁ k sw ∧ u.Reachable ∧
      m₁ ∈ u.commons.store.monitors ∧ Step u e u' ∧ u'.History es₂ s' := by
  obtain ⟨es₁, u, u', es₂, rfl, hbefore, hstep, hafter⟩ := h.of_mem he
  have hu := hs.history hbefore
  obtain ⟨m₁, hm₁, hid, horg, hname⟩ := hstep.exists_switched hu hswitches
  exact ⟨m₁, es₁, u, u', es₂, horg, hname, rfl, hswitches.congr hid horg hname, hu, hm₁, hstep,
    hafter⟩

/-- From the event on with which a monitor is switched it is kept so, and it is a stored one. -/
theorem History.keeps (h : s.History es s') (hs : s.Reachable) (he : e ∈ es)
    (hswitches : e.Switches m k sw) :
    ∃ (m₁ : Monitor) (es₁ : List Event) (u : Scene) (es₂ : List Event), m₁.org = m.org ∧
      m₁.name = m.name ∧ es = es₁ ++ e :: es₂ ∧
      e.Switches m₁ k sw ∧ u.Reachable ∧ u.Keeps sw m₁ ∧ u.History es₂ s' := by
  obtain ⟨m₁, es₁, u, u', es₂, horg, hname, rfl, hswitches₁, hu, hm₁, hstep, hafter⟩ :=
    h.of_switch hs he hswitches
  refine ⟨m₁, es₁, u', es₂, horg, hname, rfl, hswitches₁, hu.step hstep, ?_, hafter⟩
  exact hstep.keeps hswitches₁ (hu.fixes m₁ (.inl hm₁)) (hu.spent_of_monitor ⟨m₁, hm₁, rfl⟩)

end Scene

/-! ## Contestants -/

/-- The activity stops, starts or deletes the monitor of an organization with a name. -/
def Activity.Steers (org name : String) : Activity → Prop
  | stop org' name' | start org' name' | delete org' name' => org' = org ∧ name' = name
  | _ => False

instance (org name : String) : (a : Activity) → Decidable (a.Steers org name)
  | .stop _ _ | .start _ _ | .delete _ _ => inferInstanceAs (Decidable (_ ∧ _))
  | .cycle _ | .create _ _ _ | .get _ _ | .list _ _ | .update _ _ _ | .runs _ _ _ | .rerun _ _ _ _
  | .logs _ _ _ => .isFalse id

instance (org name : String) : (sw : Switch) → (a : Activity) →
    Decidable (a = sw.activity org name)
  | .off, .stop org' name' =>
    decidable_of_iff (org' = org ∧ name' = name) (Iff.of_eq (Activity.stop.injEq _ _ _ _).symm)
  | .on, .start org' name' =>
    decidable_of_iff (org' = org ∧ name' = name) (Iff.of_eq (Activity.start.injEq _ _ _ _).symm)
  | .off, .start _ _ | .on, .stop _ _ => .isFalse nofun
  | sw, .cycle _ | sw, .create _ _ _ | sw, .get _ _ | sw, .list _ _ | sw, .update _ _ _
  | sw, .delete _ _ | sw, .runs _ _ _ | sw, .rerun _ _ _ _ | sw, .logs _ _ _ =>
    .isFalse fun h => by cases sw <;> cases h

/-- If the event steers the monitor, it is part of a switch of the one kind that is not among the
first `n` tasks. -/
def Event.LeavesTo (sw : Switch) (m : Monitor) (n : Nat) : Event → Prop
  | call k a _ _ => a.Steers m.org m.name → n ≤ k ∧ a = sw.activity m.org m.name
  | _ => True

instance (sw : Switch) (m : Monitor) (n : Nat) : (e : Event) → Decidable (e.LeavesTo sw m n)
  | .call _ _ _ _ => inferInstanceAs (Decidable (_ → _ ∧ _))
  | .tick _ | .begins _ | .drops _ => .isTrue trivial

namespace Event

variable {sw : Switch} {m : Monitor} {n k : Nat} {done : Bool} {e : Event}

/-- An attempt is made by a switch. -/
theorem Attempts.exists_call (h : e.Attempts m k done sw) :
    ∃ c answer, e = .call k (sw.activity m.org m.name) c answer := by
  cases h with
  | off => exact ⟨_, _, rfl⟩
  | on next => exact ⟨_, _, rfl⟩

theorem Attempts.caller_eq (h : e.Attempts m k done sw) : e.caller = some k := by
  obtain ⟨_, _, rfl⟩ := h.exists_call
  rfl

theorem steers_activity (sw : Switch) (org name : String) :
    (sw.activity org name).Steers org name := by
  cases sw <;> exact ⟨rfl, rfl⟩

namespace LeavesTo

/-- Nobody switches the monitor the other way. -/
theorem not_opposite (h : e.LeavesTo sw m n) : ¬ e.Attempts m k done sw.opposite := by
  intro hattempts
  obtain ⟨c, answer, rfl⟩ := hattempts.exists_call
  obtain ⟨-, heq⟩ := h (steers_activity _ _ _)
  cases sw <;> cases heq

/-- Nobody deletes the monitor. -/
theorem not_deletesNamed (h : e.LeavesTo sw m n) : ¬ e.DeletesNamed m.org m.name := by
  rintro ⟨k, id, answer, rfl⟩
  obtain ⟨-, heq⟩ := h ⟨rfl, rfl⟩
  cases sw <;> cases heq

end LeavesTo

end Event

/-! ## The contest -/

/-- With the events exactly one task switches the monitor. -/
structure WonBy (sw : Switch) (m : Monitor) (j : Nat) (es : List Event) : Prop where
  exists_mem : ∃ e ∈ es, e.Switches m j sw
  only : ∀ e ∈ es, ∀ k, e.Switches m k sw → k = j

/-- The monitor is stored; and nobody has switched it and it is not switched, or exactly one task
has and it is. -/
structure Contested (sw : Switch) (m : Monitor) (es : List Event) (s : Scene) : Prop where
  present : s.commons.store.HasMonitor m.id
  stands : ((∀ e ∈ es, ∀ k, ¬ e.Switches m k sw) ∧ s.Keeps sw.opposite m) ∨
    ∃ j, WonBy sw m j es ∧ s.Keeps sw m

/-- Then it has been switched, also if more has happened since. -/
theorem WonBy.exists_switch {sw : Switch} {m : Monitor} {j : Nat} {es es' : List Event}
    (h : WonBy sw m j es) (hinitial : es <+: es') : ∃ e ∈ es', ∃ k, e.Switches m k sw :=
  have ⟨e, he, hj⟩ := h.exists_mem
  ⟨e, hinitial.subset he, j, hj⟩

namespace Contested

variable {s s' : Scene} {e : Event} {es : List Event} {m m' : Monitor} {n k : Nat} {sw : Switch}

theorem start (hs : s.Reachable) (hm : m ∈ s.commons.store.monitors) (hnot : ¬ sw.IsDone m) :
    Contested sw m [] s :=
  ⟨⟨m, hm, rfl⟩, .inl ⟨List.forall_mem_nil _, hs.keeps hm (Switch.opposite_isDone.2 hnot)⟩⟩

theorem fixes (h : Contested sw m es s) : s.Fixes m.origin := by
  rcases h.stands with ⟨-, hkeeps⟩ | ⟨j, -, hkeeps⟩
  · exact hkeeps.fixes
  · exact hkeeps.fixes

/-- A contestant that sees the monitor switched comes after the one that has switched it. -/
theorem wonBy (h : Contested sw m es s) (hm' : m' ∈ s.commons.store.monitors)
    (heq : m'.id = m.id) (hdone : sw.IsDone m') : ∃ j, WonBy sw m j es := by
  rcases h.stands with ⟨-, hkeeps⟩ | ⟨j, hwon, -⟩
  · exact absurd hdone (Switch.opposite_isDone.1 (hkeeps.stored m' hm' heq))
  · exact ⟨j, hwon⟩

/-- Nobody removes the monitor. A creation does not take it back, for it has no window. -/
theorem present_step (h : Contested sw m es s) (hstep : Scene.Step s e s')
    (he : e.LeavesTo sw m n) (hstart : m.traceStart = none) :
    s'.commons.store.HasMonitor m.id := by
  refine (hstep.stays_or_deletes h.present).resolve_right fun hdeletes => ?_
  rcases hstep.deletes_cases hdeletes with ⟨k, m₀, -, hm₀, heq, hwindow⟩ | ⟨m₀, hm₀, heq, hnamed⟩
  · have horigin : m₀.origin = m.origin :=
      h.fixes.known m₀ (.inr ⟨k, Phase.mem_monitors_of_fosters hm₀⟩) heq
    have hnone : m₀.traceStart = none := (congrArg Origin.traceStart horigin).trans hstart
    rw [hnone] at hwindow
    cases hwindow
  · obtain ⟨-, horg, hname⟩ := Monitor.identity_eq (h.fixes.known m₀ hm₀ heq)
    rw [horg, hname] at hnamed
    exact he.not_deletesNamed hnamed

/-- One more event: the first switch decides the contest, and there is no second one. -/
theorem step (h : Contested sw m es s) (hs : s.Reachable) (hstep : Scene.Step s e s')
    (he : e.LeavesTo sw m n) (hstart : m.traceStart = none) : Contested sw m (es ++ [e]) s' := by
  refine ⟨h.present_step hstep he hstart, ?_⟩
  rcases h.stands with ⟨hnone, hkeeps⟩ | ⟨j, hwon, hkeeps⟩
  · by_cases hfirst : ∃ j, e.Switches m j sw
    · obtain ⟨j, hj⟩ := hfirst
      refine .inr ⟨j, ⟨⟨e, List.mem_append_right _ (.head _), hj⟩, fun d hd k hk => ?_⟩,
        hstep.keeps hj hkeeps.fixes hkeeps.spent⟩
      rcases List.mem_append.1 hd with hd | hd
      · exact absurd hk (hnone d hd k)
      · rw [List.mem_singleton.1 hd] at hk
        exact Option.some.inj (hk.caller_eq.symm.trans hj.caller_eq)
    · rw [not_exists] at hfirst
      refine .inl ⟨fun d hd => ?_, hkeeps.step hs hstep (by rwa [Switch.opposite_opposite])⟩
      rcases List.mem_append.1 hd with hd | hd
      · exact hnone d hd
      · rwa [List.mem_singleton.1 hd]
  · -- the monitor is where the switch takes it, so no attempt is successful
    have hlate : ∀ k, ¬ e.Switches m k sw := by
      intro k hk
      obtain ⟨m₁, hm₁, heq⟩ := h.present
      have hk₁ := hk.of_origin (hkeeps.origin_eq hm₁ heq)
      exact ((hstep.attempt_iff hs hk₁ hm₁).1 rfl).2 (hkeeps.stored m₁ hm₁ heq)
    obtain ⟨d, hd, hj⟩ := hwon.exists_mem
    refine .inr ⟨j, ⟨⟨d, List.mem_append_left _ hd, hj⟩, fun d hd k hk => ?_⟩,
      hkeeps.step hs hstep fun _ => he.not_opposite⟩
    rcases List.mem_append.1 hd with hd | hd
    · exact hwon.only d hd k hk
    · rw [List.mem_singleton.1 hd] at hk
      exact absurd hk (hlate k)

end Contested

/-- While this happens nobody steers the monitor, which is stored and not switched at first, but
switches of the one kind that are not among the first `n` tasks. -/
structure IsContest (sw : Switch) (m : Monitor) (n : Nat) (s : Scene) (es : List Event)
    (s' : Scene) : Prop where
  reachable : s.Reachable
  stored : m ∈ s.commons.store.monitors
  future : m.isFuture = true
  undone : ¬ sw.IsDone m
  history : s.History es s'
  leaves : ∀ e ∈ es, e.LeavesTo sw m n

namespace IsContest

variable {s s' : Scene} {e : Event} {es : List Event} {m : Monitor} {n k : Nat} {sw : Switch}

/-- So the contest stands somehow at the end. -/
theorem contested (h : IsContest sw m n s es s') : Contested sw m es s' := by
  obtain ⟨hs, hm, hfuture, hundone, hes, hleaves⟩ := h
  have hstart : m.traceStart = none :=
    ((hs.isWellFormed m (.inl hm)).future (Monitor.isFuture_iff.1 hfuture)).2.1
  induction hes with
  | nil => exact .start hs hm hundone
  | snoc hbefore hstep ih =>
    exact (ih fun e he => hleaves e (List.mem_append_left _ he)).step (hs.history hbefore) hstep
      (hleaves _ (List.mem_append_right _ (.head _))) hstart

/-- And at each event before it. -/
theorem contested_at (h : IsContest sw m n s es s') (he : e ∈ es) :
    ∃ es₁ u u', es₁ <+: es ∧ u.Reachable ∧ Contested sw m es₁ u ∧ Scene.Step u e u' := by
  obtain ⟨es₁, u, u', es₂, rfl, hbefore, hstep, -⟩ := h.history.of_mem he
  exact ⟨es₁, u, u', List.prefix_append _ _, h.reachable.history hbefore,
    contested { h with
      history := hbefore
      leaves := fun e he => h.leaves e (List.mem_append_left _ he) }, hstep⟩

/-- Whoever looks for the monitor by its name finds it. If it is switched by then, somebody has
switched it. -/
theorem found (h : IsContest sw m n s es s') {a : Activity} {found : Option Monitor}
    (he : .call k a (.store (.findByName m.org m.name)) (.ok found) ∈ es) :
    ∃ m₁, found = some m₁ ∧ m₁.origin = m.origin ∧
      (sw.IsDone m₁ → ∃ d ∈ es, ∃ j, d.Switches m j sw) := by
  obtain ⟨es₁, u, u', hinitial, hu, hcontested, hstep⟩ := h.contested_at he
  obtain ⟨m₁, hm₁, hfind, horigin⟩ := hcontested.fixes.findByName_eq hu hcontested.present
  refine ⟨m₁, hstep.findByName_eq.symm.trans hfind, horigin, fun hdone => ?_⟩
  obtain ⟨j, hwon⟩ := hcontested.wonBy hm₁ (Monitor.identity_eq horigin).1 hdone
  exact hwon.exists_switch hinitial

/-- If an attempt is in vain, somebody has switched the monitor before. -/
theorem attempted (h : IsContest sw m n s es s') (he : e ∈ es) (hvain : e.Attempts m k false sw) :
    ∃ d ∈ es, ∃ j, d.Switches m j sw := by
  obtain ⟨es₁, u, u', hinitial, hu, hcontested, hstep⟩ := h.contested_at he
  obtain ⟨m₁, hm₁, hid⟩ := hcontested.present
  have horigin : m₁.origin = m.origin := hcontested.fixes.known m₁ (.inl hm₁) hid
  have hanswer := hstep.attempt_iff hu (hvain.of_origin horigin) hm₁
  have hdone : sw.IsDone m₁ := by
    by_contra hundone
    exact nomatch hanswer.2 ⟨(Monitor.isFuture_eq horigin).trans h.future, hundone⟩
  obtain ⟨j, hwon⟩ := hcontested.wonBy hm₁ hid hdone
  exact hwon.exists_switch hinitial

end IsContest

/-! ## How a contestant fares -/

/-- A move that is an attempt is an event that is one. -/
theorem Move.Attempts.event {move : Move} {m : Monitor} {done : Bool} {sw : Switch}
    (h : move.Attempts m.id done sw) (k : Nat) :
    (move.event k (sw.activity m.org m.name)).Attempts m k done sw := by
  cases h with
  | off => exact .off
  | on next => exact .on next

namespace Site

variable {s s' : Site} {es : List Event} {k : Nat}

/-- A switch of the monitor by the task is one of its moves. -/
theorem AreMoves.exists_attempt {a : Activity} {moves : List Move}
    {rest : Program (Except MonitorError a.Result)} (h : AreMoves s s' es k a moves rest)
    {e : Event} (he : e ∈ es) {m : Monitor} {done : Bool} {sw : Switch}
    (hattempts : e.Attempts m k done sw) : ∃ move ∈ moves, move.Attempts m.id done sw := by
  cases hattempts with
  | off =>
    obtain ⟨-, before, after, hmove⟩ := h.event_mem_iff.1 he
    exact ⟨_, hmove, .off before after⟩
  | on next =>
    obtain ⟨-, before, after, hmove⟩ := h.event_mem_iff.1 he
    exact ⟨_, hmove, .on next before after⟩

/-- A switch that is over has taken one of its courses. -/
theorem History.course {sw : Switch} {org name : String} (h : s.History es s')
    (hk : s.tasks.length ≤ k) {task : Task} (htask : s'.tasks[k]? = some task)
    (ha : task.activity = sw.activity org name) (hover : task.IsOver) :
    ∃ result moves, task = ⟨sw.activity org name, .done result⟩ ∧
      AreMoves s s' es k (sw.activity org name) moves (.done result) ∧
      sw.Course org name moves result := by
  obtain ⟨a, rest⟩ := task
  obtain rfl : a = sw.activity org name := ha
  obtain ⟨moves, hmoves⟩ := h.exists_moves hk htask
  cases rest with
  | halt => exact False.elim (hmoves.leads.returns (sw.activity_returns org name))
  | done result => exact ⟨result, moves, rfl, hmoves, Switch.activity_plays hmoves.leads.plays⟩
  | call => rcases hover with hhalt | ⟨_, hdone⟩ <;> contradiction

/-- The task has begun in the meantime, and it is a switch of the monitor. -/
structure IsContestant (s s' : Site) (sw : Switch) (m : Monitor) (k : Nat) (task : Task) :
    Prop where
  later : s.tasks.length ≤ k
  isTask : s'.tasks[k]? = some task
  activity : task.activity = sw.activity m.org m.name

/-- A contestant that is over has switched the monitor and succeeded; or it has not, somebody else
has, and the error says that the monitor is switched already. -/
theorem IsContestant.fares {g g' : Scene} {sw : Switch} {m : Monitor} {n : Nat} {task : Task}
    (hk : IsContestant s s' sw m k task) (h : s.History es s') (hes : IsContest sw m n g es g')
    (hover : task.IsOver) :
    (task.HasSucceeded ∧ ∃ e ∈ es, e.Switches m k sw) ∨
      (task.HasFailed (.invalidState (sw.fault m.name)) ∧ (∀ e ∈ es, ¬ e.Switches m k sw) ∧
        ∃ e ∈ es, ∃ j, e.Switches m j sw) := by
  obtain ⟨result, moves, rfl, hmoves, hcourse⟩ := h.course hk.later hk.isTask hk.activity hover
  have looked : ∀ {found : Option Monitor}, Looks m.org m.name found moves →
      ∃ m₁, found = some m₁ ∧ m₁.origin = m.origin ∧
        (sw.IsDone m₁ → ∃ d ∈ es, ∃ j, d.Switches m j sw) :=
    fun ⟨_, _, hmove⟩ => hes.found (hmoves.event_mem hmove)
  cases hcourse with
  | missed hlooks _ =>
    obtain ⟨_, hfound, -⟩ := looked hlooks
    cases hfound
  | past m₁ f hlooks _ hpast =>
    obtain ⟨_, hfound, horigin, -⟩ := looked hlooks
    cases hfound
    rw [Monitor.isFuture_eq horigin, hes.future] at hpast
    cases hpast
  | made m₁ move shown hlooks hattempt hattempts =>
    obtain ⟨_, hfound, horigin, -⟩ := looked hlooks
    cases hfound
    rw [(Monitor.identity_eq horigin).1] at hattempts
    exact .inl ⟨⟨shown, rfl⟩, _, hmoves.event_mem hattempt, hattempts.event k⟩
  | late m₁ hlooks hvain hlate =>
    obtain ⟨_, hfound, horigin, hwon⟩ := looked hlooks
    cases hfound
    refine .inr ⟨rfl, fun e he hswitches => ?_, ?_⟩
    · obtain ⟨move, hattempt, hattempts⟩ := hmoves.exists_attempt he hswitches
      exact hvain.not_attempts hattempt m.id hattempts
    · rcases hlate with hdone | ⟨move, hattempt, hattempts⟩
      · exact hwon hdone
      · rw [(Monitor.identity_eq horigin).1] at hattempts
        exact hes.attempted (hmoves.event_mem hattempt) (hattempts.event k)

/-! ## The statement -/

/-- How schedules are switched at a site, in what may happen from now on. -/
structure KeepsSchedules (s : Site) : Prop where
  /-- A stored monitor gets off its schedule with the conditional call of a stop only, and onto it
  with that of a start. -/
  switched : ∀ sw e s', s.Step e s' → ∀ m ∈ s.commons.store.monitors,
    ∀ m' ∈ s'.commons.store.monitors, m'.id = m.id → ¬ sw.IsDone m → sw.IsDone m' →
      ∃ k, e.Switches m k sw
  /-- A stop or a start that has succeeded has switched a monitor of its name; and that stays where
  it is, whatever else happens, until it is switched the other way. -/
  stays : ∀ sw org name es s' k task, s.History es s' → s.tasks.length ≤ k →
    s'.tasks[k]? = some task → task.activity = sw.activity org name → task.HasSucceeded →
      ∃ m es₁ e es₂, m.org = org ∧ m.name = name ∧ es = es₁ ++ e :: es₂ ∧ e.Switches m k sw ∧
        ∀ es' s'', s'.History es' s'' → (∀ d ∈ es₂ ++ es', ∀ j, ¬ d.Switches m j sw.opposite) →
          ∀ m' ∈ s''.commons.store.monitors, m'.id = m.id → sw.IsDone m'
  /-- If nothing but stops steers a monitor that is on its schedule, or nothing but starts one that
  is off it, then as soon as one of them is over it is settled which one succeeds, and every other
  is told that the monitor is stopped already, or active already. So when all are over exactly one
  has succeeded. -/
  contest : ∀ sw m es s', m ∈ s.commons.store.monitors → m.isFuture = true → ¬ sw.IsDone m →
    s.History es s' → (∀ e ∈ es, e.LeavesTo sw m s.tasks.length) →
      (∃ k task, IsContestant s s' sw m k task ∧ task.IsOver) →
        ∃ j winner, IsContestant s s' sw m j winner ∧
          ∀ k task, IsContestant s s' sw m k task → task.IsOver →
            (k = j ∧ task.HasSucceeded) ∨
              (k ≠ j ∧ task.HasFailed (.invalidState (sw.fault m.name)))

/-- Of the contestants that are over, one has succeeded and the others have come too late. -/
theorem History.exists_winner {g g' : Scene} {sw : Switch} {m : Monitor}
    (hes : IsContest sw m s.tasks.length g es g') (h : s.History es s') {i : Nat} {task : Task}
    (hi : IsContestant s s' sw m i task) (hover : task.IsOver) :
    ∃ j winner, IsContestant s s' sw m j winner ∧
      ∀ k task, IsContestant s s' sw m k task → task.IsOver →
        (k = j ∧ task.HasSucceeded) ∨
          (k ≠ j ∧ task.HasFailed (.invalidState (sw.fault m.name))) := by
  -- one that is over has switched the monitor, or it knows of somebody who has
  have hsomebody : ∃ e ∈ es, ∃ j, e.Switches m j sw := by
    rcases hi.fares h hes hover with ⟨-, e, he, hi⟩ | ⟨-, -, hwon⟩
    · exact ⟨e, he, i, hi⟩
    · exact hwon
  obtain ⟨j, hwon⟩ : ∃ j, WonBy sw m j es := by
    rcases hes.contested.stands with ⟨hnone, -⟩ | ⟨j, hwon, -⟩
    · obtain ⟨e, he, j, hj⟩ := hsomebody
      exact absurd hj (hnone e he j)
    · exact ⟨j, hwon⟩
  obtain ⟨e, he, hj⟩ := hwon.exists_mem
  obtain ⟨c, answer, rfl⟩ := hj.exists_call
  obtain ⟨rest, hwinner⟩ := h.exists_task he
  refine ⟨j, _, ⟨(hes.leaves _ he (Event.steers_activity _ _ _)).1, hwinner, rfl⟩,
    fun k task hk hover => ?_⟩
  rcases hk.fares h hes hover with ⟨hok, e, he, hswitches⟩ | ⟨hfailed, hnone, -⟩
  · exact .inl ⟨hwon.only e he k hswitches, hok⟩
  · refine .inr ⟨?_, hfailed⟩
    rintro rfl
    exact hnone _ he hj

/-- A switch that has succeeded has found a monitor by its name and switched it. -/
theorem History.exists_switch {g g' : Scene} (h : s.History es s') (hg : g.History es g')
    {sw : Switch} {org name : String} (hk : s.tasks.length ≤ k) {task : Task}
    (htask : s'.tasks[k]? = some task) (ha : task.activity = sw.activity org name)
    (hok : task.HasSucceeded) :
    ∃ m, m.org = org ∧ m.name = name ∧ ∃ e ∈ es, e.Switches m k sw := by
  obtain ⟨shown, hshown⟩ := hok
  obtain ⟨result, moves, rfl, hmoves, hcourse⟩ := h.course hk htask ha (.inr ⟨_, hshown⟩)
  cases hcourse with
  | made m move _ hlooks hattempt hattempts =>
    obtain ⟨before, after, hfind⟩ := hlooks
    obtain ⟨_, u, u', _, -, -, hstep, -⟩ := hg.of_mem (hmoves.event_mem hfind)
    obtain ⟨rfl, rfl⟩ := Store.named_of_findByName hstep.findByName_eq
    exact ⟨m, rfl, rfl, _, hmoves.event_mem hattempt, hattempts.event k⟩
  | _ => cases hshown

/-- A monitor that has been switched stays so until it is switched the other way. -/
theorem SeenAs.stays {g : Scene} (hseen : s.SeenAs g) (hg : g.Reachable) (h : s.History es s')
    {sw : Switch} {org name : String} (hk : s.tasks.length ≤ k) {task : Task}
    (htask : s'.tasks[k]? = some task) (ha : task.activity = sw.activity org name)
    (hok : task.HasSucceeded) :
    ∃ m es₁ e es₂, m.org = org ∧ m.name = name ∧ es = es₁ ++ e :: es₂ ∧ e.Switches m k sw ∧
      ∀ es' s'', s'.History es' s'' → (∀ d ∈ es₂ ++ es', ∀ j, ¬ d.Switches m j sw.opposite) →
        ∀ m' ∈ s''.commons.store.monitors, m'.id = m.id → sw.IsDone m' := by
  obtain ⟨g', hg', hseen'⟩ := hseen.history h
  obtain ⟨m₁, rfl, rfl, e, he, hswitches₁⟩ := h.exists_switch hg' hk htask ha hok
  obtain ⟨m, es₁, u, es₂, horg, hname, rfl, hswitches, hu, hkeeps, hafter⟩ :=
    hg'.keeps hg he hswitches₁
  refine ⟨m, es₁, e, es₂, horg, hname, rfl, hswitches, fun es' s'' hes' hother => ?_⟩
  obtain ⟨g'', hg'', hseen''⟩ := hseen'.history hes'
  have hreturned : g'.Keeps sw m :=
    hkeeps.history hu hafter fun d hd => hother d (List.mem_append_left _ hd)
  have hlater : g''.Keeps sw m :=
    hreturned.history (hg.history hg') hg'' fun d hd => hother d (List.mem_append_right _ hd)
  rw [← hseen''.commons]
  exact hlater.stored

/-- At every reachable site schedules are switched by stops and starts only, each of which lasts
until the next one the other way; and of those that contend for one monitor exactly one succeeds. -/
theorem schedules_kept (hs : s.Reachable) : s.KeepsSchedules := by
  obtain ⟨g, hg, hseen⟩ := hs.exists_scene
  have hstore : g.commons.store = s.commons.store := congrArg Commons.store hseen.commons
  refine ⟨fun sw e s' hstep m hm m' hm' heq hbefore hafter => ?_,
    fun sw org name es s' k task h hk htask ha hok => hseen.stays hg h hk htask ha hok,
    fun sw m es s' hm hfuture hundone h hleaves hover => ?_⟩
  · obtain ⟨g', hstep', hseen'⟩ := hseen.step hstep
    exact hstep'.switched hg (hstore ▸ hm) (hseen'.commons ▸ hm') heq hbefore hafter
  · obtain ⟨i, task, hi, hover⟩ := hover
    obtain ⟨g', hg', -⟩ := hseen.history h
    exact h.exists_winner ⟨hg, hstore ▸ hm, hfuture, hundone, hg', hleaves⟩ hi hover

/-- Two stops of a monitor have both found it on its schedule when the first of them makes its
attempt. -/
def twoStops : List Turn :=
  [.newcomer (.stop "acme" "tone"), .newcomer (.stop "acme" "tone"), .task 1, .task 1, .task 2,
    .task 2, .task 1, .task 2, .task 1, .task 2]

/-- Of two stops that contend for a monitor. -/
theorem schedules_kept_twoStops :
    let s₀ := ((holding [] ⟨7200, 0⟩).after .accepting
      (Turn.alone (.create "evaluation" "acme" (.tone "tone" none)) 0 6)).2
    let s := s₀.after .accepting twoStops
    s₀.Reachable ∧ s₀.KeepsSchedules ∧ s₀.History s.1 s.2 ∧
      (∃ m ∈ s₀.commons.store.monitors, m.isFuture = true ∧ m.nextRun ≠ none ∧
        ∀ e ∈ s.1, e.LeavesTo .off m s₀.tasks.length) ∧
      ∃ t t', s.2.tasks[1]? = some t ∧ t.HasSucceeded ∧
        s.2.tasks[2]? = some t' ∧ t'.HasFailed (.invalidState (.alreadyStopped "tone")) := by
  intro s₀ s
  have hs₀ : s₀.Reachable := reachable_after (by decide +kernel)
  refine ⟨hs₀, schedules_kept hs₀, history_after (by decide +kernel), by decide +kernel, ?_⟩
  exact ⟨_, _, List.getElem?_eq_getElem (by decide +kernel), by decide +kernel,
    List.getElem?_eq_getElem (by decide +kernel), by decide +kernel⟩

end Site

end TraceWatch
