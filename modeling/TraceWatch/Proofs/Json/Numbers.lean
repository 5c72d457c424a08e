import Mathlib.Data.List.TakeWhile
import Mathlib.Data.Nat.Digits.Defs
import Mathlib.Tactic.SplitIfs
import TraceWatch.Json.Printer
import TraceWatch.Json.Token

/-!
# Numbers read back

`JsonNumber.ReadsBack` says of a number that its text is read as it. It holds of every whole number
that is kept exactly; a binary number is read in steps that each round, and not all of them get
through. What is read as a number has the characters by which the lexer knows one:
`JsonNumber.chars_of_parse?`.
-/

namespace TraceWatch

namespace JsonNumber

/-- Whether the number is read back from its text. -/
def ReadsBack (n : JsonNumber) : Prop := parse? (Json.renderNumber n) = some n

instance (n : JsonNumber) : Decidable n.ReadsBack := inferInstanceAs (Decidable (_ = _))

/-! ## The characters of a number -/

theorem isNumberChar_of_isDigit {c : Char} (h : c.isDigit = true) : Json.isNumberChar c = true := by
  simp [Json.isNumberChar, h]

variable {negative : Bool} {digits fraction text : List Char}

theorem isDigit_of_all {r : Bool × Nat} (h : exponent?.all negative digits = some r) :
    ∀ c ∈ digits, c.isDigit = true := by
  rw [exponent?.all] at h
  split at h
  · next hall => exact List.all_eq_true.1 hall
  · cases h

theorem isNumberChar_of_exponent? {r : Bool × Nat} (h : exponent? text = some r) :
    ∀ c ∈ text, Json.isNumberChar c = true := by
  have hall : ∀ {negative : Bool} {digits : List Char},
      (if digits.isEmpty then none else exponent?.all negative digits) = some r →
        ∀ c ∈ digits, Json.isNumberChar c = true := by
    intro negative digits h
    split at h
    · cases h
    · exact fun c hc => isNumberChar_of_isDigit (isDigit_of_all h c hc)
  rw [exponent?.eq_def] at h
  split at h
  · exact List.forall_mem_cons.2 ⟨rfl, hall h⟩
  · exact List.forall_mem_cons.2 ⟨rfl, hall h⟩
  · exact hall h

/-- The tail of a number begins with the mark of an exponent, unless it is empty. -/
theorem isNumberChar_of_withExponent? {n : JsonNumber}
    (h : (withExponent? negative digits fraction text).map .binary = some n)
    (hmark : ∀ c ∈ text.head?, c = 'e' ∨ c = 'E') : ∀ c ∈ text, Json.isNumberChar c = true := by
  cases text with
  | nil => exact List.forall_mem_nil _
  | cons mark rest =>
    have hfirst : Json.isNumberChar mark = true := by
      rcases hmark mark rfl with rfl | rfl <;> rfl
    refine List.forall_mem_cons.2 ⟨hfirst, ?_⟩
    cases hexponent : exponent? rest with
    | none => simp [withExponent?, hexponent] at h
    | some r => exact isNumberChar_of_exponent? hexponent

/-- Digits can stand in a number; so it depends on what follows them. -/
theorem isNumberChar_of_dropWhile
    (h : ∀ c ∈ text.dropWhile Char.isDigit, Json.isNumberChar c = true) :
    ∀ c ∈ text, Json.isNumberChar c = true := by
  have hdigits := List.all_eq_true.1 (List.all_takeWhile (p := Char.isDigit) (l := text))
  rw [← List.takeWhile_append_dropWhile (p := Char.isDigit) (l := text)]
  exact List.forall_mem_append.2 ⟨fun c hc => isNumberChar_of_isDigit (hdigits c hc), h⟩

/-- What is read as a number without its sign begins with a digit and has no foreign characters. -/
theorem chars_of_magnitude? {n : JsonNumber} (h : magnitude? negative text = some n) :
    (∃ c rest, text = c :: rest ∧ c.isDigit = true) ∧ ∀ c ∈ text, Json.isNumberChar c = true := by
  rw [magnitude?] at h
  dsimp only at h
  split at h
  · cases h
  next hdigits =>
  refine ⟨?_, isNumberChar_of_dropWhile ?_⟩
  · cases text with
    | nil => exact absurd (.inl rfl) hdigits
    | cons c rest =>
      refine ⟨c, rest, rfl, Decidable.byContradiction fun hc => hdigits (.inl ?_)⟩
      rw [List.takeWhile_cons_of_neg hc]
      rfl
  · generalize text.dropWhile Char.isDigit = rest at h ⊢
    split at h
    · exact List.forall_mem_nil _
    · next more =>
      split_ifs at h with _ htail
      have hmark : ∀ c ∈ (more.dropWhile Char.isDigit).head?, c = 'e' ∨ c = 'E' := by
        cases htext : more.dropWhile Char.isDigit with
        | nil => exact fun c hc => nomatch hc
        | cons mark tail => simpa [htext] using htail
      exact List.forall_mem_cons.2
        ⟨rfl, isNumberChar_of_dropWhile (isNumberChar_of_withExponent? h hmark)⟩
    · next c tail _ =>
      split_ifs at h with hmark
      exact isNumberChar_of_withExponent? h (by simpa using hmark)

/-- What is read as a number begins with a digit or a minus and has no foreign characters. -/
theorem chars_of_parse? {n : JsonNumber} (h : parse? text = some n) :
    (∃ c rest, text = c :: rest ∧ (c = '-' ∨ c.isDigit = true)) ∧
      ∀ c ∈ text, Json.isNumberChar c = true := by
  rw [parse?.eq_def] at h
  split at h
  · next rest =>
    exact ⟨⟨_, _, rfl, .inl rfl⟩, List.forall_mem_cons.2 ⟨rfl, (chars_of_magnitude? h).2⟩⟩
  · obtain ⟨⟨c, rest, rfl, hc⟩, hall⟩ := chars_of_magnitude? h
    exact ⟨⟨c, rest, rfl, .inr hc⟩, hall⟩

/-! ## Whole numbers -/

/-- A positive number is written without leading zeros. -/
theorem head?_toDigits (n : Nat) (hn : 0 < n) : (Nat.toDigits 10 n).head? ≠ some '0' := by
  induction n using Nat.strongRecOn with
  | ind n ih =>
    by_cases hsmall : n < 10
    · have hdigits : ∀ k < 10, 0 < k → Nat.digitChar k ≠ '0' := by decide
      rw [Nat.toDigits_of_lt_base hsmall]
      exact fun h => hdigits n hsmall hn (Option.some.inj h)
    · have hfirst := ih (n / 10) (by omega) (by omega)
      obtain ⟨c, rest, hdigits⟩ := List.exists_cons_of_ne_nil
        (Nat.toDigits_ne_nil : Nat.toDigits 10 (n / 10) ≠ [])
      rw [Nat.toDigits_of_base_le (by decide) (by omega), hdigits]
      rwa [hdigits] at hfirst

/-- Digits of a number that is kept exactly are all taken. -/
theorem takeDigits_of_le : ∀ {digits : List Char} {value : Nat},
    Nat.ofDigitChars 10 digits value ≤ maxWhole →
      takeDigits value digits = (Nat.ofDigitChars 10 digits value, 0)
  | [], _, _ => rfl
  | c :: digits, value, h => by
    have hnext : value * 10 + (c.toNat - '0'.toNat) ≤ Nat.ofDigitChars 10 (c :: digits) value := by
      rw [Nat.ofDigitChars_cons, Nat.ofDigitChars_eq_ofDigitChars_zero, Nat.mul_comm value]
      exact Nat.le_trans (Nat.le_mul_of_pos_left _ (Nat.pow_pos (by decide))) (Nat.le_add_right _ _)
    rw [takeDigits, if_pos (Nat.le_trans hnext h), Nat.mul_comm value]
    exact takeDigits_of_le h

/-- The digits of a number are read as it, with the sign that stood before them. -/
theorem magnitude?_toDigits (negative : Bool) {n : Nat} (hn : n ≤ maxWhole) :
    magnitude? negative (Nat.toDigits 10 n) =
      if !negative then some (.whole n)
      else if n = 0 ∨ 2 ^ 63 < n then some (.binary (.ofRatio true n 1))
      else some (.whole (-n)) := by
  have hdigits : ∀ c ∈ Nat.toDigits 10 n, c.isDigit = true :=
    fun c hc => Nat.isDigit_of_mem_toDigits (by decide) (by decide) hc
  have hvalue : Nat.ofDigitChars 10 (Nat.toDigits 10 n) 0 = n :=
    Nat.ofDigitChars_toDigits (by decide) (by decide)
  have hleading : ¬ ((Nat.toDigits 10 n).isEmpty = true ∨
      ((Nat.toDigits 10 n).head? = some '0' ∧ (Nat.toDigits 10 n).length ≠ 1)) := by
    rintro (hempty | ⟨hzero, hlength⟩)
    · exact Nat.toDigits_ne_nil (List.isEmpty_iff.1 hempty)
    · rcases Nat.eq_zero_or_pos n with rfl | hpos
      · exact hlength rfl
      · exact head?_toDigits n hpos hzero
  rw [magnitude?, List.takeWhile_eq_self_iff.2 hdigits, List.dropWhile_eq_nil_iff.2 hdigits]
  dsimp only
  rw [if_neg hleading, takeDigits_of_le (hvalue.symm ▸ hn), hvalue]
  rfl

/-- Every whole number that is kept exactly is read back. -/
theorem readsBack_whole {i : Int} (hlow : -2 ^ 63 ≤ i) (hhigh : i < 2 ^ 64) :
    (whole i).ReadsBack := by
  have hmax : maxWhole = 2 ^ 64 - 1 := rfl
  rw [ReadsBack, Json.renderNumber, Int.toString_eq_repr, Int.repr_eq_if]
  by_cases hpos : 0 ≤ i
  · obtain ⟨n, rfl⟩ := Int.eq_ofNat_of_zero_le hpos
    have hminus : ∀ rest, Nat.toDigits 10 n ≠ '-' :: rest := by
      intro rest h
      have hdigit : ('-' : Char).isDigit = true :=
        Nat.isDigit_of_mem_toDigits (by decide) (by decide) (h ▸ List.mem_cons_self)
      cases hdigit
    rw [if_pos hpos, Int.toNat_natCast, Nat.toList_repr, parse?]
    · exact magnitude?_toDigits false (by omega)
    · exact hminus
  · obtain ⟨n, rfl⟩ : ∃ n : Nat, i = -(n : Int) := ⟨(-i).toNat, by omega⟩
    have htext : ("-" ++ Nat.repr n).toList = '-' :: Nat.toDigits 10 n := by
      rw [String.toList_append, Nat.toList_repr]
      rfl
    rw [if_neg hpos, Int.neg_neg, Int.toNat_natCast, htext, parse?,
      magnitude?_toDigits true (by omega), if_neg (by decide), if_neg]
    omega

end JsonNumber

end TraceWatch
