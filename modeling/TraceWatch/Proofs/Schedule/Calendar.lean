import TraceWatch.Proofs.Monitors.WellFormed
import TraceWatch.Proofs.Schedule.Due

/-!
# Plans inside the calendar

To plan is to compute with instants, and a cycle halts if one of them lies outside the calendar.
That does not happen while the clock shows ordinary instants, a quarter of a million years before or
after 1970 at most, and no interval has more than 32 bits, which is as many as a request can have
(`Event.IsOrdinary`). For then a monitor is never due before all ordinary instants
(`Scene.IsOrdinary`), and the calendar has room for one more interval on either side
(`Plan.isInCalendar`).
-/

namespace TraceWatch

/-! ## Ordinary instants and intervals -/

namespace Timestamp

/-- The number of seconds, before or after 1970, up to which instants are ordinary. -/
def farthest : Int := 8000000000000

/-- A monitor may be due at the instant: it is proper, and not before all ordinary ones. -/
structure MayBeDue (t : Timestamp) : Prop where
  proper : t.IsProper
  late : -farthest ≤ t.second

/-- The instant is ordinary. -/
structure IsOrdinary (t : Timestamp) : Prop extends t.MayBeDue where
  early : t.second ≤ farthest

instance (t : Timestamp) : Decidable t.IsOrdinary :=
  decidable_of_iff (t.IsProper ∧ -farthest ≤ t.second ∧ t.second ≤ farthest)
    ⟨fun ⟨hproper, hlate, hearly⟩ => ⟨⟨hproper, hlate⟩, hearly⟩,
      fun h => ⟨h.proper, h.late, h.early⟩⟩

/-- The nanoseconds of a proper instant come to less than two seconds. -/
theorem IsProper.floor_bounds {t : Timestamp} (ht : t.IsProper) :
    t.second ≤ t.floor ∧ t.floor ≤ t.second + 1 := by
  simp only [IsProper, floor, nanosPerSecond] at *
  omega

/-- A whole second that is not too early is one at which a monitor may be due. -/
theorem mayBeDue_ofSecond {second : Int} (h : -farthest ≤ second) : (ofSecond second).MayBeDue :=
  ⟨ofSecond_isProper second, h⟩

/-- Moved back by minutes, an instant is in the calendar if the second is that it comes to. -/
theorem inCalendar_move_back {t : Timestamp} (ht : t.IsProper) {k : Int} (hk : 1 ≤ k)
    (h : inCalendar (t.floor - 60 * k) = true) :
    inCalendar (t.move (-minutes k)).second = true := by
  have hsecond : (t.move (-minutes k)).truncate.second = (ofSecond (t.floor - 60 * k)).second :=
    congrArg second (truncate_move_back ht hk)
  exact show inCalendar (t.move (-minutes k)).second = true from hsecond ▸ h

end Timestamp

namespace Plan

open Timestamp

/-- The longest interval that a request can have, in minutes. -/
def longestInterval : Int := 0x7FFFFFFF

/-- The calendar has more than the longest interval before and after the ordinary instants. -/
theorem inCalendar_of_near {second : Int} (hlate : -farthest - 60 * longestInterval ≤ second)
    (hearly : second ≤ farthest + 60 * longestInterval + 1) : inCalendar second = true := by
  have hfirst : Date.minDays * secondsPerDay = -8334601228800 := by decide
  have hlast : (Date.maxDays + 1) * secondsPerDay = 8210266876800 := by decide
  rw [inCalendar, hfirst, hlast, Bool.and_eq_true, decide_eq_true_eq, decide_eq_true_eq]
  simp only [farthest, longestInterval] at *
  omega

theorem marginMinutes_le {i : Int} (hi : 1 ≤ i) : marginMinutes i ≤ i := by
  simp only [marginMinutes, marginPercent]
  omega

variable {u now : Timestamp} {i : Int}

/-- At an ordinary instant the calendar has all that is computed for a monitor that is due, unless
it was due before all ordinary instants or has too long an interval. -/
theorem isInCalendar (hnow : now.IsOrdinary) (hu : u.MayBeDue) (hdue : u ≤ now) (hi : 1 ≤ i)
    (hlong : i ≤ longestInterval) : IsInCalendar u now i := by
  have hmargin := one_le_marginMinutes hi
  have hshort := marginMinutes_le hi
  obtain ⟨hlate, hearly⟩ := hnow.proper.floor_bounds
  obtain ⟨hulate, huearly⟩ := hu.proper.floor_bounds
  have hfloor := floor_le_of_le hu.proper hdue
  have hnowlate := hnow.late
  have hnowearly := hnow.early
  have hfirst := hu.late
  refine ⟨inCalendar_move_back hnow.proper hmargin (inCalendar_of_near (by omega) (by omega)),
    inCalendar_move_back hu.proper hi (inCalendar_of_near (by omega) (by omega)), ?_⟩
  rw [truncate_move_back hnow.proper hmargin, move_ofSecond]
  exact inCalendar_of_near (by simp only [ofSecond]; omega) (by simp only [ofSecond]; omega)

/-- What is planned at an ordinary instant is a next run at which the monitor may be due. -/
theorem mayBeDue_nextRun {n : Option Timestamp} {k : Option Int} {plan : Plan}
    (hnow : now.IsOrdinary) (h : make n k now = .ok (some plan)) : plan.nextRun.MayBeDue := by
  obtain ⟨u, i, rfl, rfl⟩ := exists_of_make h
  obtain ⟨hi, -, hstop, hnext⟩ := make_eq h
  rw [truncate_move_back hnow.proper (one_le_marginMinutes hi)] at hstop
  rw [hnext, hstop, move_ofSecond]
  have hmargin := marginMinutes_le hi
  have hfloor := hnow.proper.floor_bounds
  have hlate := hnow.late
  exact mayBeDue_ofSecond (by omega)

end Plan

/-! ## Where due instants come from -/

/-- The task is about to have a monitor due at the instant: it creates one, starts it again, or
moves its schedule on. -/
def Phase.Sets (t : Timestamp) : Phase → Prop
  | dated now | poised _ now => now = t
  | advancing _ _ _ next => next = t
  | _ => False

/-- A monitor that is known after a step is due when one that was known was due before, or when a
task has set it to be. -/
theorem Scene.Step.exists_due {s s' : Scene} {e : Event} (h : Step s e s') {m' : Monitor}
    (hm' : s'.Knows m') {t : Timestamp} (ht : t ∈ m'.nextRun) :
    (∃ m, s.Knows m ∧ t ∈ m.nextRun) ∨ ∃ k, (s.phase k).Sets t := by
  rcases h.knows_cases hm' with
    hknown | hdrafts | ⟨m, hm, k, a, d, answer, φ, rfl, hpassage, hrewrites⟩
  · exact .inl ⟨m', hknown, ht⟩
  · obtain ⟨k, _, _, _, _, _, now, _, _, _, -, hdated, -, rfl⟩ := hdrafts.exists_request h
    obtain ⟨-, hsome⟩ := Option.ite_none_right_eq_some.1 ht
    exact .inr ⟨k, by rw [hdated]; exact Option.some.inj hsome⟩
  · cases hrewrites with
    | same | definition => exact .inl ⟨_, .inl hm, ht⟩
    | advance =>
      obtain ⟨_, _, _, hadvancing, -⟩ := hpassage.advance_inv
      exact .inr ⟨k, by rw [hadvancing]; exact Option.some.inj ht⟩
    | suspend => cases ht
    | resume =>
      obtain ⟨_, hpoised, -⟩ := hpassage.resume
      exact .inr ⟨k, by rw [hpoised]; exact Option.some.inj ht⟩

/-! ## Ordinary monitors, events and phases -/

/-- The monitor has no longer interval than a request, and it is not due before all ordinary
instants. -/
structure Monitor.IsOrdinary (m : Monitor) : Prop where
  interval : ∀ i ∈ m.interval, i ≤ Plan.longestInterval
  nextRun : ∀ t ∈ m.nextRun, t.MayBeDue

/-- When a monitor is due at an ordinary instant, the calendar has all that is computed for it. -/
theorem Monitor.IsOrdinary.exists_isInCalendar {m : Monitor} {t : Timestamp} (h : m.IsOrdinary)
    (hwell : m.IsWellFormed) (ht : t.IsOrdinary) (hdue : m.isDue t = true) :
    ∃ u i, m.nextRun = some u ∧ m.interval = some i ∧ 5 ≤ i ∧ i ≤ Plan.longestInterval ∧
      Plan.IsInCalendar u t i := by
  rw [isDue, Bool.and_eq_true] at hdue
  obtain ⟨u, hu, hle⟩ := (Option.any_eq_true _ _).1 hdue.2
  obtain ⟨⟨i, hi, hlong⟩, -⟩ := hwell.future (isFuture_iff.1 hdue.1)
  have hshort : i ≤ Plan.longestInterval := h.interval i hi
  exact ⟨u, i, hu, hi, hlong, hshort,
    Plan.isInCalendar ht (h.nextRun u hu) (of_decide_eq_true hle) (by omega) hshort⟩

/-- A monitor that is due at an ordinary instant has a plan. -/
theorem Monitor.IsOrdinary.exists_make {m : Monitor} {t : Timestamp} (h : m.IsOrdinary)
    (hwell : m.IsWellFormed) (ht : t.IsOrdinary) (hdue : m.isDue t = true) :
    ∃ plan, Plan.make m.nextRun m.interval t = .ok (some plan) := by
  obtain ⟨u, i, hu, hi, hlong, -, hcalendar⟩ := h.exists_isInCalendar hwell ht hdue
  rw [hu, hi]
  exact Plan.exists_make_of_isInCalendar (by omega) hcalendar

/-- No interval is asked for that a request cannot have. -/
def Activity.IsOrdinary : Activity → Prop
  | create _ _ request => ∀ i ∈ request.interval, i ≤ Plan.longestInterval
  | update _ _ edit => ∀ i ∈ edit.interval, i ≤ Plan.longestInterval
  | _ => True

/-- The clock is set to ordinary instants, and what happens is part of ordinary activities. -/
def Event.IsOrdinary : Event → Prop
  | tick t => t.IsOrdinary
  | begins a | call _ a _ _ => a.IsOrdinary
  | drops _ => True

instance : (a : Activity) → Decidable a.IsOrdinary
  | .create _ _ _ | .update _ _ _ => inferInstanceAs (Decidable (∀ _ ∈ _, _))
  | .cycle _ | .get _ _ | .list _ _ | .delete _ _ | .stop _ _ | .start _ _ | .runs _ _ _
  | .rerun _ _ _ _ | .logs _ _ _ => .isTrue trivial

instance : (e : Event) → Decidable e.IsOrdinary
  | .tick t => inferInstanceAs (Decidable t.IsOrdinary)
  | .begins a | .call _ a _ _ => inferInstanceAs (Decidable a.IsOrdinary)
  | .drops _ => .isTrue trivial

/-- A trigger has an ordinary instant, and moves a schedule to where its monitor may be due. -/
def Purpose.IsOrdinary : Purpose → Prop
  | trigger now _ next => now.IsOrdinary ∧ next.MayBeDue
  | initial | rerun => True

namespace Phase

/-- The instants that a task holds are ordinary, and a schedule is moved to where its monitor may be
due. -/
def IsOrdinary : Phase → Prop
  | timed now | rounds now _ | dated now | poised _ now => now.IsOrdinary
  | advancing now _ _ next => now.IsOrdinary ∧ next.MayBeDue
  | submitting k _ _ | accepted k _ _ _ | stamped k _ _ _ _ | refused k _ _ _ => k.IsOrdinary
  | _ => True

variable {k : Purpose} {x : Assignment}

theorem isOrdinary_afterRecord (h : k.IsOrdinary) : (k.afterRecord x).IsOrdinary := by
  cases k with
  | trigger => exact h
  | initial | rerun => trivial

theorem isOrdinary_afterFailure (h : k.IsOrdinary) : (k.afterFailure x).IsOrdinary := by
  cases k with
  | trigger => exact h.1
  | initial | rerun => trivial

/-- A task with ordinary instants has a monitor due at no other. -/
theorem IsOrdinary.of_sets {φ : Phase} (h : φ.IsOrdinary) {t : Timestamp} (ht : φ.Sets t) :
    t.MayBeDue := by
  cases φ with
  | dated | poised => exact ht ▸ h.toMayBeDue
  | advancing => exact ht ▸ h.2
  | _ => exact False.elim ht

end Phase

/-! ## Every step -/

namespace Passage

variable {a : Activity} {φ φ' : Phase} {c : Call} {answer : c.Answer} {w w' : Commons} {i : Nat}

/-- What a task reads off an ordinary clock, and what it plans then, is ordinary. -/
theorem isOrdinary (h : Passage a φ c answer φ') (hw : w.Answers i c answer w')
    (hclock : w.clock.IsOrdinary) (hφ : φ.IsOrdinary) : φ'.IsOrdinary := by
  cases h with
  | read | waste | tally | submit | stamp | refuse => exact hφ
  | pause | time | date =>
    obtain ⟨rfl, -⟩ := hw
    exact hclock
  | snapshot => exact hφ
  | aim hplan => exact ⟨hφ, Plan.mayBeDue_nextRun hφ hplan⟩
  | advance => exact hφ.1
  | record => exact Phase.isOrdinary_afterRecord hφ
  | reject | compensate => exact Phase.isOrdinary_afterFailure hφ
  | _ => trivial

end Passage

namespace Scene

/-- The clock, the monitors that are known and the phases of the tasks are ordinary. -/
structure IsOrdinary (s : Scene) : Prop where
  clock : s.commons.clock.IsOrdinary
  known : ∀ m, s.Knows m → m.IsOrdinary
  phase : ∀ k, (s.phase k).IsOrdinary

/-- An ordinary event leaves no monitor with a longer interval than a request. -/
theorem IsOrdinary.interval {s s' : Scene} {e : Event} (h : s.IsOrdinary) (hstep : Step s e s')
    (he : e.IsOrdinary) {m' : Monitor} (hm' : s'.Knows m') :
    ∀ i ∈ m'.interval, i ≤ Plan.longestInterval := by
  rcases hstep.knows_cases hm' with
    hknown | hdrafts | ⟨m, hm, k, a, d, answer, φ, rfl, hpassage, hrewrites⟩
  · exact (h.known m' hknown).interval
  · obtain ⟨_, _, _, request, _, _, _, _, _, _, rfl, -, -, rfl⟩ := hdrafts.exists_request hstep
    intro i hi
    obtain ⟨-, hsome⟩ := Option.ite_none_right_eq_some.1 hi
    obtain rfl := Option.some.inj hsome
    cases hinterval : request.truncate.interval with
    | none => exact show NewMonitor.defaultInterval ≤ _ by decide
    | some i => exact he i hinterval
  · cases hrewrites with
    | definition =>
      obtain ⟨m₀, now, edit, hpoised, rfl, -, rfl⟩ := hpassage.updateDefinition
      have hknown : m₀ ∈ (s.phase k).monitors := hpoised ▸ .head _
      intro i hi
      have hi : (edit.interval <|> m₀.interval) = some i := hi
      cases hedit : edit.interval with
      | none =>
        rw [hedit] at hi
        exact (h.known m₀ (.inr ⟨k, hknown⟩)).interval i hi
      | some i' =>
        rw [hedit] at hi
        exact Option.some.inj hi ▸ he i' hedit
    | _ => exact (h.known _ (.inl hm)).interval

/-- An ordinary event leaves an ordinary scene ordinary. -/
theorem IsOrdinary.step {s s' : Scene} {e : Event} (h : s.IsOrdinary) (hstep : Step s e s')
    (he : e.IsOrdinary) : s'.IsOrdinary := by
  refine ⟨hstep.clock (fun _ heq => by subst heq; exact he) h.clock,
    fun m' hm' => ⟨h.interval hstep he hm', fun t ht => ?_⟩, fun k => ?_⟩
  · rcases hstep.exists_due hm' ht with ⟨m, hm, hdue⟩ | ⟨k, hsets⟩
    · exact (h.known m hm).nextRun t hdue
    · exact (h.phase k).of_sets hsets
  · rcases hstep.call_or_rests with ⟨i, a, c, answer, rfl⟩ | ⟨-, hrests⟩
    · cases hstep with
      | @call w w' g _ _ _ _ φ hpassage hw =>
        exact Phase.to_update Phase.IsOrdinary
          (fun _ => hpassage.isOrdinary hw h.clock (h.phase i)) fun _ => h.phase k
    · exact hrests.to_phase (P := Phase.IsOrdinary) trivial (h.phase k)

/-- What begins with an empty store and an ordinary clock stays ordinary, if nothing but ordinary
events happen. -/
theorem History.isOrdinary {w : Commons} {s : Scene} {es : List Event}
    (h : (ofCommons w).History es s) (hstore : w.store = .empty) (hclock : w.clock.IsOrdinary)
    (hes : ∀ e ∈ es, e.IsOrdinary) : s.IsOrdinary := by
  induction h with
  | nil =>
    refine ⟨hclock, fun m hm => ?_, fun _ => trivial⟩
    rcases hm with hstored | ⟨k, hknown⟩
    · exact absurd (show m ∈ w.store.monitors from hstored) (by rw [hstore]; exact List.not_mem_nil)
    · exact absurd hknown List.not_mem_nil
  | snoc _ hstep ih =>
    exact (ih fun e he => hes e (List.mem_append_left _ he)).step hstep
      (hes _ (List.mem_append_right _ (.head _)))

end Scene

/-- So at a site that begins with an empty store, the clock and the monitors stay ordinary. -/
theorem Site.History.isOrdinary {s₀ s : Site} {es : List Event} (h : s₀.History es s)
    (hnew : s₀.IsNew) (hclock : s₀.commons.clock.IsOrdinary) (hes : ∀ e ∈ es, e.IsOrdinary) :
    s.commons.clock.IsOrdinary ∧ ∀ m ∈ s.commons.store.monitors, m.IsOrdinary := by
  obtain ⟨g, hg, hseen⟩ := h.exists_scene hnew.tasks
  have hordinary : g.IsOrdinary := hg.isOrdinary hnew.store hclock hes
  rw [← hseen.commons]
  exact ⟨hordinary.clock, fun m hm => hordinary.known m (.inl hm)⟩

end TraceWatch
