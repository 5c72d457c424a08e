import TraceWatch.Time.Calendar

/-!
# Days and dates

The calendar has a date for every day and counts the day back from it: `Date.toDays_ofDays`,
`Date.isValid_ofDays`. A year begins in March here, so of a date the era of 400 years, the year of
the era and the day of the year are taken apart one after the other, and everything but the leap day
is whole-number arithmetic.
-/

namespace TraceWatch

namespace Date

/-! ## The year of a day -/

/-- A day of an era by its century, the four years in that, the year in those and the day in that
year. Only the fourth year of four has 366 days, and not in every century; the last day of the era
is left out. -/
theorem exists_parts {n : Int} (hlow : 0 ≤ n) (hhigh : n < 146096) :
    ∃ c q z r : Int, n = 36524 * c + 1461 * q + 365 * z + r ∧ (0 ≤ c ∧ c ≤ 3) ∧ (0 ≤ q ∧ q ≤ 24) ∧
      (0 ≤ z ∧ z ≤ 3) ∧ 0 ≤ r ∧ (r ≤ 364 ∨ r = 365 ∧ z = 3 ∧ q ≤ 23) := by
  refine ⟨n / 36524, n % 36524 / 1461, min (n % 36524 % 1461 / 365) 3,
    n % 36524 % 1461 - 365 * min (n % 36524 % 1461 / 365) 3, ?_, ?_, ?_, ?_, ?_, ?_⟩
  · omega
  · omega
  · omega
  · omega
  · omega
  · omega

/-- The year of an era in which a day of the era lies. -/
def yearOfEra (n : Int) : Int := (n - n / 1460 + n / 36524 - n / 146096) / 365

/-- The day of its year that a day of an era is. -/
def dayOfYear (n : Int) : Int := n - (365 * yearOfEra n + yearOfEra n / 4 - yearOfEra n / 100)

theorem yearOfEra_eq {n c q z r : Int} (hn : n = 36524 * c + 1461 * q + 365 * z + r)
    (hc : 0 ≤ c ∧ c ≤ 3) (hq : 0 ≤ q ∧ q ≤ 24) (hz : 0 ≤ z ∧ z ≤ 3) (hr : 0 ≤ r)
    (hlast : r ≤ 364 ∨ r = 365 ∧ z = 3 ∧ q ≤ 23) : yearOfEra n = 100 * c + 4 * q + z := by
  have hera : n / 146096 = 0 := by omega
  have hcentury : n / 36524 = c := by omega
  have hfour : n / 1460 = 25 * c + q ∨ n / 1460 = 25 * c + q + 1 ∧ 1364 ≤ 365 * z + r := by omega
  rw [yearOfEra, hera, hcentury]
  omega

/-- A day lies in its year, and only a year before a leap day has a day 365. -/
theorem dayOfYear_bounds {n : Int} (hlow : 0 ≤ n) (hhigh : n ≤ 146096) :
    (0 ≤ yearOfEra n ∧ yearOfEra n ≤ 399) ∧ 0 ≤ dayOfYear n ∧
      (dayOfYear n ≤ 364 ∨ dayOfYear n = 365 ∧ isLeapYear (yearOfEra n + 1) = true) := by
  rcases Int.lt_or_eq_of_le hhigh with hlt | rfl
  · obtain ⟨c, q, z, r, hn, hc, hq, hz, hr, hlast⟩ := exists_parts hlow hlt
    have hyear := yearOfEra_eq hn hc hq hz hr hlast
    have hday : dayOfYear n = r := by
      rw [dayOfYear, hyear]
      omega
    rw [hyear, hday]
    refine ⟨by omega, hr, hlast.imp_right fun ⟨h, hz, hq⟩ => ⟨h, ?_⟩⟩
    have hfour : (100 * c + 4 * q + z + 1) % 4 = 0 := by omega
    have hcentury : (100 * c + 4 * q + z + 1) % 100 ≠ 0 := by omega
    simp [isLeapYear, hfour, hcentury]
  · decide

/-! ## The month of a day of the year -/

/-- The months from March on, with their lengths; the last is February. -/
theorem month_bounds {r : Int} (hlow : 0 ≤ r) (hhigh : r ≤ 365) :
    (0 ≤ (5 * r + 2) / 153 ∧ (5 * r + 2) / 153 ≤ 11) ∧
      1 ≤ r - (153 * ((5 * r + 2) / 153) + 2) / 5 + 1 := by
  omega

/-! ## A day and its date -/

theorem ofDays_eq (days : Int) :
    ofDays days =
      let era := (days + 719468) / 146097
      let n := (days + 719468) % 146097
      let month := (5 * dayOfYear n + 2) / 153
      let day := dayOfYear n - (153 * month + 2) / 5 + 1
      if month < 10 then ⟨yearOfEra n + era * 400, month + 3, day⟩
      else ⟨yearOfEra n + era * 400 + 1, month - 9, day⟩ := by
  have hday : days + 719468 - (days + 719468) / 146097 * 146097 = (days + 719468) % 146097 := by
    omega
  simp only [ofDays, hday]
  rfl

/-- The calendar counts back to a day from its date. -/
theorem toDays_ofDays (days : Int) : (ofDays days).toDays = days := by
  have hn := dayOfYear_bounds (n := (days + 719468) % 146097) (by omega) (by omega)
  rw [ofDays_eq]
  dsimp only
  have hr := dayOfYear.eq_1 ((days + 719468) % 146097)
  generalize dayOfYear ((days + 719468) % 146097) = r at *
  generalize yearOfEra ((days + 719468) % 146097) = y at *
  have hmonth := month_bounds (r := r) (by omega) (by omega)
  generalize (5 * r + 2) / 153 = month at *
  split
  · simp only [toDays]
    rw [if_neg (by omega), if_neg (by omega)]
    omega
  · simp only [toDays]
    rw [if_pos (by omega), if_pos (by omega)]
    omega

/-- Leap years recur with every era. -/
theorem isLeapYear_add_era (year era : Int) : isLeapYear (year + era * 400) = isLeapYear year := by
  have hfour : (year + era * 400) % 4 = year % 4 := by omega
  have hcentury : (year + era * 400) % 100 = year % 100 := by omega
  have hera : (year + era * 400) % 400 = year % 400 := by omega
  rw [isLeapYear, isLeapYear, hfour, hcentury, hera]

theorem monthLength_le (year month : Int) : monthLength year month ≤ 31 := by
  unfold monthLength
  split <;> split <;> decide

theorem isValid_iff (date : Date) : date.isValid = true ↔ (1 ≤ date.month ∧ date.month ≤ 12) ∧
    1 ≤ date.day ∧ date.day ≤ monthLength date.year date.month := by
  simp [isValid, and_assoc]

/-- The date of a day is one of the calendar. -/
theorem isValid_ofDays (days : Int) : (ofDays days).isValid = true := by
  obtain ⟨-, hlow, hhigh⟩ := dayOfYear_bounds (n := (days + 719468) % 146097) (by omega) (by omega)
  have hleap : isLeapYear (yearOfEra ((days + 719468) % 146097) +
      (days + 719468) / 146097 * 400 + 1) =
        isLeapYear (yearOfEra ((days + 719468) % 146097) + 1) := by
    rw [Int.add_right_comm, isLeapYear_add_era]
  rw [isValid_iff, ofDays_eq]
  dsimp only
  generalize dayOfYear ((days + 719468) % 146097) = r at *
  have hmonth := month_bounds hlow (by omega)
  generalize hm : (5 * r + 2) / 153 = month at *
  split
  · dsimp only
    refine ⟨by omega, hmonth.2, ?_⟩
    simp only [monthLength]
    split
    · omega
    · split <;> omega
  · dsimp only
    refine ⟨by omega, hmonth.2, ?_⟩
    simp only [monthLength, hleap]
    split
    · rcases hhigh with hhigh | ⟨hlast, hhigh⟩
      · split <;> omega
      · rw [if_pos hhigh]
        omega
    · split <;> omega

/-- A day of a year lies in the era of the year, if the year is the one that began last March. -/
theorem era_bounds {days year doy : Int} (hdoy : 0 ≤ doy ∧ doy ≤ 367)
    (h : year / 400 * 146097 + ((year - year / 400 * 400) * 365 + (year - year / 400 * 400) / 4 -
      (year - year / 400 * 400) / 100 + doy) - 719468 = days) :
    year / 400 * 146097 - 719468 ≤ days ∧ days ≤ year / 400 * 146097 + 146098 - 719468 := by
  omega

/-- A day of the calendar in use, in the year that began last March. The first year of the calendar
lacks its first two months, the last its last ten. -/
theorem year_bounds {days year doy : Int} (hlow : -96465292 ≤ days) (hhigh : days ≤ 95026236)
    (hdoy : 0 ≤ doy ∧ doy ≤ 367)
    (h : year / 400 * 146097 + ((year - year / 400 * 400) * 365 + (year - year / 400 * 400) / 4 -
      (year - year / 400 * 400) / 100 + doy) - 719468 = days) :
    (-262144 ≤ year ∧ year ≤ 262142) ∧ (year = -262144 → 306 ≤ doy) ∧
      (year = 262142 → doy ≤ 305) := by
  have hera := era_bounds hdoy h
  generalize hy : year / 400 = era at *
  have hfirst : -656 ≤ era := by omega
  have hlast : era ≤ 655 := by omega
  refine ⟨⟨Int.not_lt.1 fun hyear => ?_, Int.not_lt.1 fun hyear => ?_⟩, ?_, ?_⟩
  · obtain rfl : era = -656 := by omega
    omega
  · obtain rfl : era = 655 := by omega
    omega
  · rintro rfl
    omega
  · rintro rfl
    omega

/-- The days of the calendar in use have the years of it. -/
theorem year_ofDays_bounds {days : Int} (hlow : minDays ≤ days) (hhigh : days ≤ maxDays) :
    minYear ≤ (ofDays days).year ∧ (ofDays days).year ≤ maxYear := by
  have hfirst : minDays = -96465292 := by decide
  have hlast : maxDays = 95026236 := by decide
  obtain ⟨hmonth, hday, hlength⟩ := (isValid_iff _).1 (isValid_ofDays days)
  have hdays := toDays_ofDays days
  generalize ofDays days = date at *
  have hday' : date.day ≤ 31 := Int.le_trans hlength (monthLength_le _ _)
  simp only [toDays] at hdays
  simp only [minYear, maxYear]
  split at hdays
  · have hyear := year_bounds (hfirst ▸ hlow) (hlast ▸ hhigh) (by omega) hdays
    omega
  · have hyear := year_bounds (hfirst ▸ hlow) (hlast ▸ hhigh) (by omega) hdays
    omega

end Date

end TraceWatch
