import Mathlib.Order.Bounds.Basic
import TraceWatch.Proofs.Schedule.Window

/-!
# The plan for a monitor that is due

What is planned for a monitor that is due is fixed to the second, at every instant and from every
due instant, those within leap seconds included, as long as the calendar has the instants that are
computed on the way (`Plan.IsInCalendar`). The margin is the least one of whole minutes
(`Plan.isLeast_marginMinutes`), the end of the window lies just before it (`Plan.make_stop_bounds`),
and `Plan.make_due` puts together what is planned.
-/

namespace TraceWatch

namespace Timestamp

/-- So many seconds, in nanoseconds. -/
def seconds (n : Int) : Int := n * nanosPerSecond

/-- A whole second is not after any instant of that second or of a later one. -/
theorem ofSecond_le {second : Int} {t : Timestamp} (h : second ≤ t.second) :
    ofSecond second ≤ t := by
  rw [le_def]
  rcases Int.lt_or_eq_of_le h with hlt | heq
  · exact .inl hlt
  · exact .inr ⟨heq, Nat.zero_le _⟩

/-- A whole second outside leap seconds is cut to itself. -/
theorem isWhole_ofSecond (second : Int) : (ofSecond second).IsWhole := rfl

/-- An instant that is cut to a whole second outside leap seconds lies in that second. -/
theorem of_truncate_eq {t : Timestamp} {second : Int} (h : t.truncate = ofSecond second) :
    t.IsProper ∧ t.floor = second := by
  obtain ⟨hsecond, hnano⟩ := Timestamp.mk.inj h
  have hleap : ¬ t.isLeap = true := fun hleap => by
    rw [if_pos hleap] at hnano
    cases hnano
  have hplain : t.nano < nanosPerSecond := by simpa [isLeap] using hleap
  simp only [IsProper, floor, nanosPerSecond] at *
  omega

/-- Moved back by a second or more, an instant lies in the second that it comes to. -/
theorem second_move_back {t : Timestamp} (ht : t.IsProper) {k : Int} (hk : 1 ≤ k) :
    (t.move (-seconds k)).second = t.floor - k := by
  -- no move backwards by a second or more stays in a leap second
  have hback : -seconds k ≤ -(nanosPerSecond : Int) := by
    simp only [seconds, nanosPerSecond]
    omega
  have hbefore : ¬ 2 * (nanosPerSecond : Int) ≤ t.nano + -seconds k := by
    simp only [IsProper, nanosPerSecond, seconds] at *
    omega
  have hmove : t.move (-seconds k) =
      ofNanos (t.second * nanosPerSecond + t.nano + -seconds k) := by
    unfold move
    dsimp only
    rw [if_neg hbefore, if_pos hback, ite_self]
  rw [hmove]
  simp only [ofNanos, floor, seconds, nanosPerSecond]
  omega

end Timestamp

namespace Plan

open Timestamp

variable {due now : Timestamp} {i : Int} {plan : Plan}

/-- The margin is the least number of whole minutes that is not below five percent of the
interval. -/
theorem isLeast_marginMinutes (hi : 0 ≤ i) :
    IsLeast {m | 5 * i ≤ 100 * m} (marginMinutes i) := by
  have hmargin : marginMinutes i = (i * 5 + 99) / 100 := by
    rw [marginMinutes, marginPercent, Int.max_eq_left hi]
  refine ⟨?_, fun m hm => ?_⟩
  · rw [Set.mem_ofPred_eq, hmargin]
    omega
  · rw [Set.mem_ofPred_eq] at hm
    rw [hmargin]
    omega

/-- The calendar has every instant that is computed for a plan. -/
structure IsInCalendar (due now : Timestamp) (i : Int) : Prop where
  stop : inCalendar (now.move (-minutes (marginMinutes i))).second = true
  start : inCalendar (due.move (-minutes i)).second = true
  next : inCalendar
    ((now.move (-minutes (marginMinutes i))).truncate.move (minutes i)).second = true

instance : Decidable (IsInCalendar due now i) :=
  decidable_of_iff (_ ∧ _ ∧ _) ⟨fun ⟨a, b, c⟩ => ⟨a, b, c⟩, fun ⟨a, b, c⟩ => ⟨a, b, c⟩⟩

/-- Whenever the calendar has its instants, something is planned. -/
theorem exists_make_of_isInCalendar (hi : 1 ≤ i) (h : IsInCalendar due now i) :
    ∃ plan, make (some due) (some i) now = .ok (some plan) := by
  have hstop : now.add? (-minutes (marginMinutes i)) = some _ := if_pos h.stop
  have hstart : due.add? (-minutes i) = some _ := if_pos h.start
  have hnext : (now.move (-minutes (marginMinutes i))).truncate.add? (minutes i) = some _ :=
    if_pos h.next
  rw [make, if_neg (by omega), hstop, hstart]
  simp only [Option.bind_eq_bind, Option.bind_some, hnext]
  exact ⟨_, rfl⟩

/-- The end of the window lies before five percent of the interval, and less than a second before
the margin. -/
theorem make_stop_bounds (hnow : now.IsProper) (hi : 1 ≤ i)
    (h : make (some due) (some i) now = .ok (some plan)) :
    plan.window.stop.IsWhole ∧ plan.window.stop ≤ now.move (-seconds (3 * i)) ∧
      (now.move (-minutes (marginMinutes i))).move (-seconds 1) < plan.window.stop := by
  obtain ⟨-, -, hstop, -⟩ := make_eq h
  have hcut := truncate_move_back hnow (one_le_marginMinutes hi)
  rw [hstop, hcut]
  refine ⟨isWhole_ofSecond _, ofSecond_le ?_, ?_⟩
  · have hshare : 5 * i ≤ 100 * marginMinutes i := (isLeast_marginMinutes (by omega)).1
    rw [second_move_back hnow (by omega)]
    omega
  · obtain ⟨hproper, hfloor⟩ := of_truncate_eq hcut
    rw [lt_def, second_move_back hproper le_rfl, hfloor]
    exact .inl (by simp only [ofSecond]; omega)

/-- What is planned for a monitor that is due. -/
structure IsForDue (plan : Plan) (due now : Timestamp) (i : Int) : Prop where
  start : plan.window.start = (due.move (-minutes i)).truncate
  whole : plan.window.stop.IsWhole
  /-- The window ends before the last five percent of the interval. -/
  before : plan.window.stop ≤ now.move (-seconds (3 * i))
  /-- It ends less than a second before the margin. -/
  close : (now.move (-minutes (marginMinutes i))).move (-seconds 1) < plan.window.stop
  nonempty : plan.window.start < plan.window.stop
  next : plan.nextRun = plan.window.stop.move (minutes i)
  /-- The next run is not due yet. -/
  later : now < plan.nextRun
  /-- Whenever the next run is planned, its window starts where this one ends. -/
  resumes : ∀ now', IsInCalendar plan.nextRun now' i →
    ∃ plan', make (some plan.nextRun) (some i) now' = .ok (some plan') ∧
      plan'.window.start = plan.window.stop

/-- For a monitor that is due and has an interval of five minutes or more, a run is planned whenever
the calendar has its instants; and the margin of the interval is the least one of whole minutes. -/
theorem make_due (hdueProper : due.IsProper) (hnow : now.IsProper) (hi : 5 ≤ i) (hdue : due ≤ now)
    (hcalendar : IsInCalendar due now i) :
    IsLeast {m | 5 * i ≤ 100 * m} (marginMinutes i) ∧
      ∃ plan, make (some due) (some i) now = .ok (some plan) ∧ plan.IsForDue due now i := by
  have hpos : 1 ≤ i := by omega
  obtain ⟨plan, hplan⟩ := exists_make_of_isInCalendar hpos hcalendar
  obtain ⟨-, hstart, -, hnext⟩ := make_eq hplan
  obtain ⟨hwhole, hbefore, hclose⟩ := make_stop_bounds hnow hpos hplan
  refine ⟨isLeast_marginMinutes (by omega), plan, hplan, hstart, hwhole, hbefore, hclose,
    make_nonempty hdueProper hnow hi hdue hplan, hnext, lt_make_nextRun hi hplan, ?_⟩
  intro now' hcalendar'
  obtain ⟨plan', hplan'⟩ := exists_make_of_isInCalendar hpos hcalendar'
  obtain ⟨-, hstart', -⟩ := make_eq hplan'
  exact ⟨plan', hplan', hstart'.trans (make_next hnow hplan).2⟩

/-- A monitor with an interval of 21 minutes, due and planned for within the leap second at the end
of 2016. -/
theorem make_due_leapSecond :
    let due : Timestamp := ⟨1483228799, 1250000000⟩
    let now : Timestamp := ⟨1483228799, 1750000000⟩
    due.IsProper ∧ now.IsProper ∧ due ≤ now ∧ IsInCalendar due now 21 ∧
      IsLeast {m | 5 * 21 ≤ 100 * m} (marginMinutes 21) ∧
        ∃ plan, make (some due) (some 21) now = .ok (some plan) ∧ plan.IsForDue due now 21 := by
  intro due now
  have hdueProper : due.IsProper := by decide
  have hnow : now.IsProper := by decide
  have hdue : due ≤ now := by decide
  have hcalendar : IsInCalendar due now 21 := by decide
  exact ⟨hdueProper, hnow, hdue, hcalendar, make_due hdueProper hnow (by decide) hdue hcalendar⟩

end Plan

end TraceWatch
