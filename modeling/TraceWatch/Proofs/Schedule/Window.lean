import TraceWatch.Window

/-!
# The arithmetic of windows

A plan begins where the plan before it ended, whatever the two clock readings were. The reason is
that the end of a window is a whole second outside any leap second, on which moving an interval
forwards and backwards again is exact. Only the very first window begins at an instant that is cut.
-/

namespace TraceWatch

namespace Timestamp

/-- The instant is one that can be written down: a part of a second, or of a leap second. -/
def IsProper (t : Timestamp) : Prop := t.nano < 2 * nanosPerSecond

instance (t : Timestamp) : Decidable t.IsProper := inferInstanceAs (Decidable (_ < _))

/-- The second that the nanoseconds of an instant come to; a leap second counts as the one after
it. -/
def floor (t : Timestamp) : Int := t.second + t.nano / (nanosPerSecond : Int)

/-- A whole second outside leap seconds. -/
def ofSecond (second : Int) : Timestamp := ⟨second, 0⟩

theorem ofSecond_isProper (second : Int) : (ofSecond second).IsProper := by
  simp [IsProper, ofSecond, nanosPerSecond]

@[simp] theorem floor_ofSecond (second : Int) : (ofSecond second).floor = second := by
  simp [floor, ofSecond]

theorem ofSecond_inj {a b : Int} : ofSecond a = ofSecond b ↔ a = b := by
  simp [ofSecond]

theorem ofSecond_lt {a b : Int} : ofSecond a < ofSecond b ↔ a < b := by
  simp [lt_def, ofSecond]

/-- An instant that is not before another comes to a second that is at most one earlier. -/
theorem floor_le_of_le {s t : Timestamp} (hs : s.IsProper) (h : s ≤ t) : s.floor ≤ t.floor + 1 := by
  simp only [le_def, IsProper, floor, nanosPerSecond] at *
  omega

/-- Cut to a whole second, an instant counted in nanoseconds loses what is left over. -/
theorem truncate_ofNanos (nanos : Int) :
    (ofNanos nanos).truncate = ofSecond (nanos / nanosPerSecond) := by
  have hnano : (ofNanos nanos).nano < nanosPerSecond := by
    simp only [ofNanos, nanosPerSecond]
    omega
  have hleap : ¬ (ofNanos nanos).isLeap = true := by simpa [isLeap] using hnano
  rw [truncate, if_neg hleap]
  rfl

/-- Moved back by minutes and cut, an instant is a whole second. -/
theorem truncate_move_back {t : Timestamp} (ht : t.IsProper) {k : Int} (hk : 1 ≤ k) :
    (t.move (-minutes k)).truncate = ofSecond (t.floor - 60 * k) := by
  -- no move backwards by a minute or more stays in a leap second
  have hback : -minutes k ≤ -(nanosPerSecond : Int) := by
    simp only [minutes, nanosPerSecond]
    omega
  have hbefore : ¬ 2 * (nanosPerSecond : Int) ≤ t.nano + -minutes k := by
    simp only [IsProper, nanosPerSecond, minutes] at *
    omega
  have hmove : t.move (-minutes k) =
      ofNanos (t.second * nanosPerSecond + t.nano + -minutes k) := by
    unfold move
    dsimp only
    rw [if_neg hbefore, if_pos hback, ite_self]
  rw [hmove, truncate_ofNanos]
  congr 1
  simp only [floor, minutes, nanosPerSecond]
  omega

/-- Moved back by minutes and cut, any instant at all is a whole second, and not an earlier one than
the minutes take it to. -/
theorem exists_truncate_move_back (t : Timestamp) {k : Int} (hk : 1 ≤ k) :
    ∃ second, t.second - 60 * k ≤ second ∧ (t.move (-minutes k)).truncate = ofSecond second := by
  -- either the instant is counted in nanoseconds as it is, or a leap second is left forwards
  have hmove : ∃ nanos, (t.second - 60 * k) * nanosPerSecond ≤ nanos ∧
      t.move (-minutes k) = ofNanos nanos := by
    unfold move
    dsimp only
    split
    · split
      · refine ⟨_, ?_, rfl⟩
        simp only [minutes, nanosPerSecond] at *
        omega
      · rw [if_pos (by simp only [minutes, nanosPerSecond]; omega)]
        refine ⟨_, ?_, rfl⟩
        simp only [minutes, nanosPerSecond]
        omega
    · refine ⟨_, ?_, rfl⟩
      simp only [minutes, nanosPerSecond]
      omega
  obtain ⟨nanos, hle, hmove⟩ := hmove
  refine ⟨nanos / nanosPerSecond, ?_, by rw [hmove, truncate_ofNanos]⟩
  simp only [nanosPerSecond] at *
  omega

/-- Moving a whole second forwards by minutes is exact. -/
theorem move_ofSecond (second k : Int) :
    (ofSecond second).move (minutes k) = ofSecond (second + 60 * k) := by
  have hleap : ¬ (ofSecond second).isLeap = true := by simp [isLeap, ofSecond, nanosPerSecond]
  unfold move
  dsimp only
  rw [if_neg hleap]
  simp only [ofSecond, ofNanos, minutes, nanosPerSecond, mk.injEq]
  omega

/-- An instant that the calendar has is where the move leads. -/
theorem eq_move_of_add? {t u : Timestamp} {delta : Int} (h : t.add? delta = some u) :
    u = t.move delta := by
  unfold add? at h
  dsimp only at h
  split at h
  · exact (Option.some.inj h).symm
  · cases h

end Timestamp

namespace Plan

open Timestamp

theorem one_le_marginMinutes {i : Int} (hi : 1 ≤ i) : 1 ≤ marginMinutes i := by
  simp only [marginMinutes, marginPercent]
  omega

/-- The margin of an interval of five minutes or more leaves four minutes of it. -/
theorem marginMinutes_add_four_le {i : Int} (hi : 5 ≤ i) : marginMinutes i + 4 ≤ i := by
  simp only [marginMinutes, marginPercent]
  omega

/-- Something is planned only for a monitor that is due and has an interval. -/
theorem exists_of_make {n : Option Timestamp} {k : Option Int} {now : Timestamp} {plan : Plan}
    (h : make n k now = .ok (some plan)) : ∃ u i, n = some u ∧ k = some i := by
  cases k with
  | none => cases h
  | some i =>
    cases n with
    | none => cases h
    | some u => exact ⟨u, i, rfl, rfl⟩

/-- What is planned for a monitor due at `u`. -/
theorem make_eq {u now : Timestamp} {i : Int} {plan : Plan}
    (h : make (some u) (some i) now = .ok (some plan)) :
    1 ≤ i ∧ plan.window.start = (u.move (-minutes i)).truncate ∧
      plan.window.stop = (now.move (-minutes (marginMinutes i))).truncate ∧
      plan.nextRun = plan.window.stop.move (minutes i) := by
  simp only [make] at h
  split at h
  · cases h
  · next hpos =>
    have hmade := Except.ok.inj h
    simp only [Option.bind_eq_bind, Option.bind_eq_some_iff, Option.some.injEq] at hmade
    obtain ⟨stop, hstop, start, hstart, next, hnext, rfl⟩ := hmade
    obtain rfl := eq_move_of_add? hstop
    obtain rfl := eq_move_of_add? hstart
    exact ⟨by omega, rfl, rfl, eq_move_of_add? hnext⟩

/-- The end of a planned window is a whole second, and the next run is due an interval after it. -/
theorem make_next {u now : Timestamp} {i : Int} {plan : Plan} (hnow : now.IsProper)
    (h : make (some u) (some i) now = .ok (some plan)) :
    plan.nextRun.IsProper ∧ (plan.nextRun.move (-minutes i)).truncate = plan.window.stop := by
  obtain ⟨hi, -, hstop, hnext⟩ := make_eq h
  rw [truncate_move_back hnow (one_le_marginMinutes hi)] at hstop
  rw [hnext, hstop, move_ofSecond]
  refine ⟨ofSecond_isProper _, ?_⟩
  rw [truncate_move_back (ofSecond_isProper _) hi, floor_ofSecond]
  congr 1
  omega

/-- The next run is due after the instant of the plan, if the interval is five minutes or more. -/
theorem lt_make_nextRun {n : Option Timestamp} {now : Timestamp} {i : Int} {plan : Plan}
    (hi : 5 ≤ i) (h : make n (some i) now = .ok (some plan)) : now < plan.nextRun := by
  obtain ⟨u, -, rfl, -⟩ := exists_of_make h
  obtain ⟨hpos, -, hstop, hnext⟩ := make_eq h
  obtain ⟨second, hle, hcut⟩ := exists_truncate_move_back now (one_le_marginMinutes hpos)
  rw [hnext, hstop, hcut, move_ofSecond, lt_def]
  have hmargin := marginMinutes_add_four_le hi
  exact .inl (by simp only [ofSecond]; omega)

/-- A window is planned after another one, for the instant that the other plan has left. It begins
where the other ends, moved by as much as the interval has become shorter. -/
theorem make_seam {n : Option Timestamp} {now now' : Timestamp} {i i' : Int} {last plan : Plan}
    (hnow : now.IsProper) (hlast : make n (some i) now = .ok (some last))
    (h : make (some last.nextRun) (some i') now' = .ok (some plan)) :
    ∃ second, last.window.stop = ofSecond second ∧ last.nextRun = ofSecond (second + 60 * i) ∧
      plan.window.start = ofSecond (second + 60 * (i - i')) := by
  obtain ⟨u, -, rfl, -⟩ := exists_of_make hlast
  obtain ⟨hi, -, hstop, hnext⟩ := make_eq hlast
  rw [truncate_move_back hnow (one_le_marginMinutes hi)] at hstop
  rw [hstop, move_ofSecond] at hnext
  obtain ⟨hi', hstart, -⟩ := make_eq h
  rw [hnext, truncate_move_back (ofSecond_isProper _) hi', floor_ofSecond] at hstart
  refine ⟨_, hstop, hnext, hstart.trans (congrArg ofSecond ?_)⟩
  omega

/-- A window that is planned when its monitor is due is not empty. -/
theorem make_nonempty {u now : Timestamp} {i : Int} {plan : Plan} (hu : u.IsProper)
    (hnow : now.IsProper) (hi : 5 ≤ i) (hdue : u ≤ now)
    (h : make (some u) (some i) now = .ok (some plan)) : plan.window.start < plan.window.stop := by
  obtain ⟨hpos, hstart, hstop, -⟩ := make_eq h
  rw [hstart, hstop, truncate_move_back hu hpos,
    truncate_move_back hnow (one_le_marginMinutes hpos), ofSecond_lt]
  have hmargin := marginMinutes_add_four_le hi
  have hfloor := floor_le_of_le hu hdue
  omega

end Plan

end TraceWatch
