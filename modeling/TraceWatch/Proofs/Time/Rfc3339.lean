import Mathlib.Data.Nat.Digits.Defs
import TraceWatch.Proofs.Time.Calendar
import TraceWatch.Time.Rfc3339

/-!
# Instants read back

A whole second that is written is read back as it was: `Timestamp.parse?_renderSeconds`. It may be
of any year of the calendar, of which some have a sign and more than four digits, and it may be a
leap second, which is written as second 60 of its minute. The text is taken apart in the order in
which it is read, one lemma for each sort of part.
-/

namespace TraceWatch

namespace Timestamp

/-! ## Digits -/

theorem digitsValue_eq (digits : List Char) :
    digitsValue digits = Nat.ofDigitChars 10 digits 0 := by
  rw [Nat.ofDigitChars_eq_foldl, digitsValue]
  simp only [Nat.mul_comm]

theorem toList_padded (width n : Nat) : (padded width n).toList =
    List.replicate (width - (Nat.toDigits 10 n).length) '0' ++ Nat.toDigits 10 n := by
  rw [padded, String.toList_append, String.toList_ofList, Nat.toList_repr, ← String.length_toList,
    Nat.toList_repr]

/-- A padded number is read back from its digits. -/
theorem digitsValue_padded (width n : Nat) : digitsValue (padded width n).toList = n := by
  rw [digitsValue_eq, toList_padded, Nat.ofDigitChars_append, Nat.ofDigitChars_replicate_zero,
    Nat.mul_zero, Nat.ofDigitChars_toDigits (by decide) (by decide)]

theorem isDigit_of_mem_padded (width n : Nat) :
    ∀ c ∈ (padded width n).toList, c.isDigit = true := by
  intro c h
  rw [toList_padded] at h
  rcases List.mem_append.1 h with h | h
  · rw [List.eq_of_mem_replicate h]
    decide
  · exact Nat.isDigit_of_mem_toDigits (by decide) (by decide) h

theorem padded_ne_nil (width n : Nat) : (padded width n).toList ≠ [] := by
  rw [toList_padded]
  exact List.append_ne_nil_of_right_ne_nil _ Nat.toDigits_ne_nil

/-- A number that is not too large fills its place and no more. -/
theorem length_padded {width n : Nat} (hwidth : 0 < width) (hn : n < 10 ^ width) :
    (padded width n).toList.length = width := by
  have hlength := (Nat.length_toDigits_le_iff (by decide) hwidth).2 hn
  rw [toList_padded, List.length_append, List.length_replicate]
  exact Nat.sub_add_cancel hlength

/-! ## The parts of a text -/

/-- A digit is not blank, and neither is any other mark of an instant. -/
theorem not_isBlankChar_of_isDigit {c : Char} (h : c.isDigit = true) :
    Text.isBlankChar c = false := by
  obtain ⟨hlow, hhigh⟩ := Char.isDigit_iff_toNat.1 h
  have hzero : '0'.toNat = 48 := rfl
  have hnine : '9'.toNat = 57 := rfl
  simp only [Text.isBlankChar, Bool.or_eq_false_iff, Bool.and_eq_false_iff, decide_eq_false_iff_not]
  omega

theorem trimStart_cons {c : Char} {rest : List Char} (h : Text.isBlankChar c = false) :
    Text.trimStart (c :: rest) = c :: rest :=
  List.dropWhile_cons_of_neg (by rw [h]; exact Bool.false_ne_true)

/-- What begins with digits does not begin with a blank. -/
theorem trimStart_digits {digits rest : List Char} (hdigits : ∀ c ∈ digits, c.isDigit = true)
    (hne : digits ≠ []) : Text.trimStart (digits ++ rest) = digits ++ rest := by
  cases digits with
  | nil => exact absurd rfl hne
  | cons c digits =>
    exact trimStart_cons (not_isBlankChar_of_isDigit (hdigits c (.head _)))

/-- Digits that fill the width are taken. -/
theorem takeDigits_full : ∀ {digits : List Char} (rest : List Char),
    (∀ c ∈ digits, c.isDigit = true) → takeDigits digits.length (digits ++ rest) = (digits, rest)
  | [], _, _ => rfl
  | c :: digits, rest, h => by
    rw [List.length_cons, List.cons_append, takeDigits, if_pos (h c (.head _)),
      takeDigits_full rest fun d hd => h d (.tail _ hd)]

/-- Digits before a mark are taken. -/
theorem takeDigits_until {mark : Char} (hmark : mark.isDigit = false) (rest : List Char) :
    ∀ {digits : List Char} {width : Nat}, (∀ c ∈ digits, c.isDigit = true) →
      digits.length < width → takeDigits width (digits ++ mark :: rest) = (digits, mark :: rest)
  | [], _ + 1, _, _ => by
    rw [List.nil_append, takeDigits, if_neg (by rw [hmark]; exact Bool.false_ne_true)]
  | c :: digits, width + 1, h, hlength => by
    rw [List.cons_append, takeDigits, if_pos (h c (.head _)),
      takeDigits_until hmark rest (fun d hd => h d (.tail _ hd)) (Nat.lt_of_succ_lt_succ hlength)]

/-- A number that fills its place is read. -/
theorem number?_full {width n : Nat} (hwidth : 0 < width) (hn : n < 10 ^ width)
    (rest : List Char) : number? width ((padded width n).toList ++ rest) = some (n, rest) := by
  have htaken := takeDigits_full rest (isDigit_of_mem_padded width n)
  rw [length_padded hwidth hn] at htaken
  rw [number?, htaken]
  dsimp only
  rw [if_neg (by simpa using padded_ne_nil width n), digitsValue_padded]

/-- A number before a mark is read, if there is room for it. -/
theorem number?_until {mark : Char} (hmark : mark.isDigit = false) {room width n : Nat}
    (hroom : (padded width n).toList.length < room) (rest : List Char) :
    number? room ((padded width n).toList ++ mark :: rest) = some (n, mark :: rest) := by
  rw [number?, takeDigits_until hmark rest (isDigit_of_mem_padded width n) hroom]
  dsimp only
  rw [if_neg (by simpa using padded_ne_nil width n), digitsValue_padded]

theorem field?_padded {low high n : Nat} (hn : low ≤ n ∧ n ≤ high) (hhigh : high < 100)
    (rest : List Char) : field? low high ((padded 2 n).toList ++ rest) = some (n, rest) := by
  have hnumber : number? 2 ((padded 2 n).toList ++ rest) = some (n, rest) :=
    number?_full (by decide) (Nat.lt_of_le_of_lt hn.2 hhigh) rest
  rw [field?, trimStart_digits (isDigit_of_mem_padded 2 n) (padded_ne_nil 2 n), hnumber]
  exact if_pos hn

theorem mark?_cons {mark : Char} (hmark : Text.isBlankChar mark = false) (rest : List Char) :
    mark? mark (mark :: rest) = some rest := by
  rw [mark?, trimStart_cons hmark]
  exact if_pos rfl

theorem year?_minus (text : List Char) : year? ('-' :: text) =
    (number? text.length text).map fun (n, tail) => (-(n : Int), tail) := by
  rw [year?, trimStart_cons (by decide)]
  rfl

theorem year?_plus (text : List Char) : year? ('+' :: text) =
    (number? text.length text).map fun (n, tail) => ((n : Int), tail) := by
  rw [year?, trimStart_cons (by decide)]
  rfl

theorem year?_digits {digits : List Char} (hdigits : ∀ c ∈ digits, c.isDigit = true)
    (hne : digits ≠ []) (rest : List Char) : year? (digits ++ rest) =
      (number? 4 (digits ++ rest)).map fun (n, tail) => ((n : Int), tail) := by
  rw [year?, trimStart_digits hdigits hne]
  cases digits with
  | nil => exact absurd rfl hne
  | cons c digits =>
    have hc := hdigits c (.head _)
    rw [List.cons_append]
    split
    · next heq =>
      cases heq
      cases hc
    · next heq =>
      cases heq
      cases hc
    · rfl

/-- A year is read, whether it has a sign or not. -/
theorem year?_renderYear (year : Int) (rest : List Char) :
    year? ((renderYear year).toList ++ '-' :: rest) = some (year, '-' :: rest) := by
  have hsigned : number? ((padded 4 year.natAbs).toList ++ '-' :: rest).length
      ((padded 4 year.natAbs).toList ++ '-' :: rest) = some (year.natAbs, '-' :: rest) :=
    number?_until rfl (by simp) rest
  rw [renderYear]
  split
  · next hyear =>
    have hplain : number? 4 ((padded 4 year.toNat).toList ++ '-' :: rest) =
        some (year.toNat, '-' :: rest) := number?_full (by decide) (by omega) _
    rw [year?_digits (isDigit_of_mem_padded 4 _) (padded_ne_nil 4 _), hplain, Option.map_some]
    dsimp only
    rw [Int.toNat_of_nonneg hyear.1]
  · by_cases hneg : year < 0
    · rw [if_pos hneg, String.toList_append]
      refine (year?_minus ((padded 4 year.natAbs).toList ++ '-' :: rest)).trans ?_
      rw [hsigned, Option.map_some]
      dsimp only
      rw [Int.ofNat_natAbs_of_nonpos (Int.le_of_lt hneg), Int.neg_neg]
    · rw [if_neg hneg, String.toList_append]
      refine (year?_plus ((padded 4 year.natAbs).toList ++ '-' :: rest)).trans ?_
      rw [hsigned, Option.map_some]
      dsimp only
      rw [Int.natAbs_of_nonneg (Int.not_lt.1 hneg)]

/-! ## The whole text -/

/-- A whole second of the calendar. A leap second is second 60 of its minute. -/
structure IsWholeSecond (t : Timestamp) : Prop where
  whole : t.IsWhole
  calendar : inCalendar t.second = true
  leap : t.isLeap = true → t.second % 60 = 59

/-- The characters of a whole second. -/
theorem toList_renderSeconds (t : Timestamp) :
    let date := Date.ofDays (t.second / secondsPerDay)
    let ofDay := (t.second % secondsPerDay).toNat
    let second := ofDay % 60 + (if t.isLeap then 1 else 0)
    t.renderSeconds.toList = (renderYear date.year).toList ++ '-' ::
      ((padded 2 date.month.toNat).toList ++ '-' :: ((padded 2 date.day.toNat).toList ++ 'T' ::
        ((padded 2 (ofDay / 3600)).toList ++ ':' :: ((padded 2 (ofDay / 60 % 60)).toList ++ ':' ::
          ((padded 2 second).toList ++ ['Z']))))) := by
  simp [renderSeconds, renderWith, String.toList_append, List.append_assoc]

/-- What has been read is handed on. -/
theorem bind_of_eq_some {α β : Type} {x : Option α} {v : α} {f : α → Option β} (h : x = some v) :
    (x >>= f) = f v := by
  rw [h]
  rfl

/-- A text that is written as an instant is read as its parts say. -/
theorem parse?_of_parts {t : String} {year u : Int}
    {month day hour minute second : Nat} (hmonth : 1 ≤ month ∧ month ≤ 12)
    (hday : 1 ≤ day ∧ day ≤ 31) (hhour : hour ≤ 23) (hminute : minute ≤ 59) (hsecond : second ≤ 60)
    (hvalid : (⟨year, month, day⟩ : Date).isValid = true)
    (hyear : Date.minYear ≤ year ∧ year ≤ Date.maxYear)
    (huniversal : (⟨year, month, day⟩ : Date).toDays * secondsPerDay +
      ((hour : Int) * 3600 + (minute : Int) * 60 +
        ((if second = 60 then 59 else second : Nat) : Int)) = u) (hcalendar : inCalendar u = true)
    (htext : t.toList = (renderYear year).toList ++ '-' :: ((padded 2 month).toList ++ '-' ::
      ((padded 2 day).toList ++ 'T' :: ((padded 2 hour).toList ++ ':' ::
        ((padded 2 minute).toList ++ ':' :: ((padded 2 second).toList ++ ['Z'])))))) :
    parse? t = some ⟨u, if second = 60 then nanosPerSecond else 0⟩ := by
  have hdash : Text.isBlankChar '-' = false := rfl
  have hcolon : Text.isBlankChar ':' = false := rfl
  have hhour' : 0 ≤ hour ∧ hour ≤ 23 := ⟨Nat.zero_le _, hhour⟩
  have hminute' : 0 ≤ minute ∧ minute ≤ 59 := ⟨Nat.zero_le _, hminute⟩
  have hsecond' : 0 ≤ second ∧ second ≤ 60 := ⟨Nat.zero_le _, hsecond⟩
  have hfraction : fraction? ['Z'] = some (0, ['Z']) := rfl
  have hoffset : offset? (Text.trimStart ['Z']) = some (0, []) := rfl
  rw [parse?, htext, bind_of_eq_some (year?_renderYear _ _)]
  dsimp only
  rw [bind_of_eq_some (mark?_cons hdash _), bind_of_eq_some (field?_padded hmonth (by decide) _)]
  dsimp only
  rw [bind_of_eq_some (mark?_cons hdash _), bind_of_eq_some (field?_padded hday (by decide) _)]
  dsimp only
  rw [separator?, if_pos (.inl rfl), bind_of_eq_some rfl,
    bind_of_eq_some (field?_padded hhour' (by decide) _)]
  dsimp only
  rw [bind_of_eq_some (mark?_cons hcolon _),
    bind_of_eq_some (field?_padded hminute' (by decide) _)]
  dsimp only
  rw [bind_of_eq_some (mark?_cons hcolon _),
    bind_of_eq_some (field?_padded hsecond' (by decide) _)]
  dsimp only
  rw [bind_of_eq_some hfraction]
  dsimp only
  rw [bind_of_eq_some hoffset]
  dsimp only
  rw [Int.sub_zero, huniversal, Nat.zero_add]
  exact if_pos ⟨rfl, hvalid, by decide, hyear.1, hyear.2, hcalendar⟩

/-- The seconds of the calendar are those of its days. -/
theorem days_of_inCalendar {second : Int} (h : inCalendar second = true) :
    Date.minDays ≤ second / secondsPerDay ∧ second / secondsPerDay ≤ Date.maxDays := by
  rw [inCalendar, Bool.and_eq_true, decide_eq_true_eq, decide_eq_true_eq] at h
  rw [secondsPerDay] at *
  omega

/-- A whole second of the calendar is read back from its text. -/
theorem parse?_renderSeconds {t : Timestamp} (ht : t.IsWholeSecond) :
    parse? t.renderSeconds = some t := by
  obtain ⟨hlow, hhigh⟩ := days_of_inCalendar ht.calendar
  have hvalid := Date.isValid_ofDays (t.second / secondsPerDay)
  have hyear := Date.year_ofDays_bounds hlow hhigh
  have hdays := Date.toDays_ofDays (t.second / secondsPerDay)
  have htext := toList_renderSeconds t
  generalize Date.ofDays (t.second / secondsPerDay) = date at *
  obtain ⟨year, month, day⟩ := date
  obtain ⟨hmonth, hday, hlength⟩ := (Date.isValid_iff _).1 hvalid
  have hday' := Int.le_trans hlength (Date.monthLength_le year month)
  obtain ⟨month, rfl⟩ := Int.eq_ofNat_of_zero_le (Int.le_trans (by decide) hmonth.1)
  obtain ⟨day, rfl⟩ := Int.eq_ofNat_of_zero_le (Int.le_trans (by decide) hday)
  have hsplit : t.second / secondsPerDay * secondsPerDay + t.second % secondsPerDay = t.second :=
    Int.ediv_mul_add_emod _ _
  obtain ⟨ofDay, hofDay⟩ := Int.eq_ofNat_of_zero_le
    (Int.emod_nonneg t.second (show secondsPerDay ≠ 0 by decide))
  have hlt : (ofDay : Int) < secondsPerDay := hofDay ▸ Int.emod_lt_of_pos _ (by decide)
  have hminute : t.second % 60 = (ofDay % 60 : Nat) := by
    rw [secondsPerDay] at *
    omega
  dsimp only at hmonth hday hday' hyear htext
  rw [hofDay] at htext hsplit
  simp only [Int.toNat_natCast] at htext
  have hbounds : ofDay / 3600 ≤ 23 ∧ ofDay / 60 % 60 ≤ 59 := by
    rw [secondsPerDay] at hlt
    omega
  -- second 60 is written for a leap second and for nothing else
  have hsixty : ofDay % 60 + (if t.isLeap = true then 1 else 0) = 60 ↔ t.isLeap = true := by
    by_cases hleap : t.isLeap = true
    · have hlast := ht.leap hleap
      rw [if_pos hleap, iff_true_right hleap]
      omega
    · rw [if_neg hleap, iff_false_right hleap]
      omega
  have hsecond : ofDay % 60 + (if t.isLeap = true then 1 else 0) ≤ 60 := by
    split <;> omega
  have huniversal : t.second / secondsPerDay * secondsPerDay +
      (((ofDay / 3600 : Nat) : Int) * 3600 + ((ofDay / 60 % 60 : Nat) : Int) * 60 +
        ((if ofDay % 60 + (if t.isLeap = true then 1 else 0) = 60 then 59
          else ofDay % 60 + (if t.isLeap = true then 1 else 0) : Nat) : Int)) = t.second := by
    simp only [hsixty]
    split
    · have hleap := ht.leap ‹_›
      omega
    · omega
  have hparse := parse?_of_parts (t := t.renderSeconds) (by omega) (by omega) hbounds.1 hbounds.2
    hsecond hvalid hyear (hdays ▸ huniversal) ht.calendar htext
  have hnano : t.nano = if t.isLeap = true then nanosPerSecond else 0 :=
    (congrArg nano ht.whole).symm
  simp only [hparse, hsixty, ← hnano]

end Timestamp

end TraceWatch
