import Mathlib.Computability.RegularExpressions
import TraceWatch.Monitor.Rules

/-!
# The pattern of monitors' names

The names of monitors are the texts that match a pattern as a whole: a letter, 1 to 48 letters,
digits and hyphens, and a letter or digit at the end (`Rules.namePattern`). The rule for names is
written as a check of the length and of the characters; it accepts just those texts
(`Rules.matches_namePattern_iff`).
-/

namespace TraceWatch

/-! ## Patterns of characters -/

namespace Pattern

/-- The characters from one to another. -/
def range (first last : Char) : List Char :=
  (List.range' first.toNat (last.toNat + 1 - first.toNat)).map Char.ofNat

/-- One of some characters. -/
def oneOf (cs : List Char) : RegularExpression Char := (cs.map RegularExpression.char).sum

/-- A pattern again and again, at least and at most so many times. -/
def times (low high : Nat) (pattern : RegularExpression Char) : RegularExpression Char :=
  pattern ^ low * (1 + pattern) ^ (high - low)

variable {cs text : List Char} {c : Char}

/-- A range that ends below the surrogates holds what lies between its ends. -/
theorem mem_range {first last : Char} (hlast : last.toNat < 0xD800) :
    c ∈ range first last ↔ first ≤ c ∧ c ≤ last := by
  have hle {a b : Char} : a ≤ b ↔ a.toNat ≤ b.toNat := Iff.rfl
  rw [range, List.mem_map, hle, hle]
  constructor
  · rintro ⟨n, hn, rfl⟩
    obtain ⟨hlow, hhigh⟩ := List.mem_range'_1.1 hn
    have hvalid : n.isValidChar := .inl (by omega)
    have hn : (Char.ofNat n).toNat = n := by
      rw [Char.ofNat, dif_pos hvalid]
      rfl
    omega
  · rintro ⟨hlow, hhigh⟩
    exact ⟨c.toNat, List.mem_range'_1.2 (by omega), Char.ofNat_toNat c⟩

theorem mem_oneOf : ∀ {cs : List Char}, text ∈ (oneOf cs).matches' ↔ ∃ c ∈ cs, text = [c]
  | [] => ⟨False.elim, fun ⟨_, h, _⟩ => absurd h List.not_mem_nil⟩
  | c :: cs => by
    have ih : text ∈ (oneOf cs).matches' ↔ ∃ c ∈ cs, text = [c] := mem_oneOf
    have hcons : text ∈ (oneOf (c :: cs)).matches' ↔
        text = [c] ∨ text ∈ (oneOf cs).matches' := Language.mem_add _ _ _
    rw [hcons, ih, List.exists_mem_cons_iff]

theorem mem_pow_zero {pattern : RegularExpression Char} :
    text ∈ (pattern ^ 0).matches' ↔ text = [] := by
  rw [RegularExpression.matches'_pow, pow_zero, Language.mem_one]

theorem mem_pow_succ {pattern : RegularExpression Char} {n : Nat} :
    text ∈ (pattern ^ (n + 1)).matches' ↔
      ∃ front ∈ pattern.matches', ∃ back ∈ (pattern ^ n).matches', front ++ back = text := by
  rw [RegularExpression.matches'_pow, pow_succ', ← RegularExpression.matches'_pow,
    Language.mem_mul]

/-- A row of so many characters of a class. -/
theorem mem_oneOf_pow : ∀ {n : Nat} {text : List Char},
    text ∈ (oneOf cs ^ n).matches' ↔ text.length = n ∧ ∀ c ∈ text, c ∈ cs
  | 0, text => by
    rw [mem_pow_zero, List.length_eq_zero_iff]
    exact ⟨fun h => ⟨h, by rw [h]; exact List.forall_mem_nil _⟩, And.left⟩
  | n + 1, text => by
    rw [mem_pow_succ]
    constructor
    · rintro ⟨front, hfront, back, hback, rfl⟩
      obtain ⟨c, hc, rfl⟩ := mem_oneOf.1 hfront
      obtain ⟨hlength, hback⟩ := mem_oneOf_pow.1 hback
      exact ⟨congrArg (· + 1) hlength, List.forall_mem_cons.2 ⟨hc, hback⟩⟩
    · rintro ⟨hlength, hall⟩
      obtain ⟨c, rest, rfl⟩ := List.exists_cons_of_length_eq_add_one hlength
      obtain ⟨hc, hrest⟩ := List.forall_mem_cons.1 hall
      exact ⟨[c], mem_oneOf.2 ⟨c, hc, rfl⟩, rest,
        mem_oneOf_pow.2 ⟨Nat.succ.inj hlength, hrest⟩, rfl⟩

/-- A row of at most so many characters of a class. -/
theorem mem_optional_pow : ∀ {n : Nat} {text : List Char},
    text ∈ ((1 + oneOf cs) ^ n).matches' ↔ text.length ≤ n ∧ ∀ c ∈ text, c ∈ cs
  | 0, text => by
    rw [mem_pow_zero, Nat.le_zero, List.length_eq_zero_iff]
    exact ⟨fun h => ⟨h, by rw [h]; exact List.forall_mem_nil _⟩, And.left⟩
  | n + 1, text => by
    rw [mem_pow_succ]
    constructor
    · rintro ⟨front, hfront, back, hback, rfl⟩
      obtain ⟨hlength, hback⟩ := mem_optional_pow.1 hback
      rcases (Language.mem_add _ _ _).1 hfront with rfl | hfront
      · exact ⟨Nat.le_succ_of_le hlength, hback⟩
      · obtain ⟨c, hc, rfl⟩ := mem_oneOf.1 hfront
        exact ⟨Nat.succ_le_succ hlength, List.forall_mem_cons.2 ⟨hc, hback⟩⟩
    · rintro ⟨hlength, hall⟩
      cases text with
      | nil => exact ⟨[], .inl rfl, [], mem_optional_pow.2 ⟨Nat.zero_le n, hall⟩, rfl⟩
      | cons c rest =>
        obtain ⟨hc, hrest⟩ := List.forall_mem_cons.1 hall
        exact ⟨[c], .inr (mem_oneOf.2 ⟨c, hc, rfl⟩), rest,
          mem_optional_pow.2 ⟨Nat.le_of_succ_le_succ hlength, hrest⟩, rfl⟩

theorem mem_times_oneOf {low high : Nat} (hle : low ≤ high) :
    text ∈ (times low high (oneOf cs)).matches' ↔
      (low ≤ text.length ∧ text.length ≤ high) ∧ ∀ c ∈ text, c ∈ cs := by
  rw [times, RegularExpression.matches'_mul, Language.mem_mul]
  constructor
  · rintro ⟨front, hfront, back, hback, rfl⟩
    obtain ⟨hlow, hfront⟩ := mem_oneOf_pow.1 hfront
    obtain ⟨hmore, hback⟩ := mem_optional_pow.1 hback
    rw [List.length_append, List.forall_mem_append]
    exact ⟨⟨by omega, by omega⟩, hfront, hback⟩
  · rintro ⟨⟨hlow, hhigh⟩, hall⟩
    rw [← List.take_append_drop low text, List.forall_mem_append] at hall
    refine ⟨text.take low, mem_oneOf_pow.2 ⟨List.length_take_of_le hlow, hall.1⟩,
      text.drop low, mem_optional_pow.2 ⟨?_, hall.2⟩, List.take_append_drop low text⟩
    rw [List.length_drop]
    omega

end Pattern

/-! ## Names -/

namespace Rules

/-- The letters of names. -/
def letters : List Char := Pattern.range 'a' 'z'

/-- The digits of names. -/
def digits : List Char := Pattern.range '0' '9'

/-- The pattern of names. -/
def namePattern : RegularExpression Char :=
  Pattern.oneOf letters * Pattern.times 1 48 (Pattern.oneOf (letters ++ digits ++ ['-']))
    * Pattern.oneOf (letters ++ digits)

variable {c : Char} {name : String}

theorem mem_letters : c ∈ letters ↔ c.isLower = true := by
  rw [letters, Pattern.mem_range (by decide)]
  change _ ↔ (decide ('a' ≤ c) && decide (c ≤ 'z')) = true
  rw [Bool.and_eq_true, decide_eq_true_eq, decide_eq_true_eq]

theorem mem_digits : c ∈ digits ↔ c.isDigit = true := by
  rw [digits, Pattern.mem_range (by decide)]
  change _ ↔ (decide ('0' ≤ c) && decide (c ≤ '9')) = true
  rw [Bool.and_eq_true, decide_eq_true_eq, decide_eq_true_eq]

theorem isNameChar_iff : isNameChar c = true ↔ c ∈ letters ++ digits ++ ['-'] := by
  rw [isNameChar, Bool.or_eq_true, Bool.or_eq_true, decide_eq_true_eq, List.mem_append,
    List.mem_append, List.mem_singleton, mem_letters, mem_digits]

/-- What is asked of the characters of a name. -/
structure IsProperName (name : String) : Prop where
  length : 3 ≤ name.toList.length ∧ name.toList.length ≤ 50
  characters : ∀ c ∈ name.toList, c ∈ letters ++ digits ++ ['-']
  first : ∃ c ∈ letters, name.toList.head? = some c
  last : name.toList.getLast? ≠ some '-'

theorem isName_iff : isName name = true ↔ IsProperName name := by
  simp only [isName, Bool.and_eq_true, decide_eq_true_eq, List.all_eq_true, Option.any_eq_true,
    isNameChar_iff, ← mem_letters]
  constructor
  · rintro ⟨⟨⟨hlength, hall⟩, c, hfirst, hc⟩, d, hlast, hd⟩
    refine ⟨hlength, hall, ⟨c, hc, hfirst⟩, fun hhyphen => hd ?_⟩
    exact Option.some.inj (hlast.symm.trans hhyphen)
  · rintro ⟨hlength, hall, ⟨c, hc, hfirst⟩, hlast⟩
    refine ⟨⟨⟨hlength, hall⟩, c, hfirst, hc⟩, ?_⟩
    cases hd : name.toList.getLast? with
    | none =>
      rw [List.getLast?_eq_none_iff.1 hd] at hfirst
      cases hfirst
    | some d => exact ⟨d, rfl, fun hhyphen => hlast (hd.trans (congrArg some hhyphen))⟩

/-- A text that matches the pattern has a first and a last character, and others between them. -/
theorem mem_namePattern {text : List Char} :
    text ∈ namePattern.matches' ↔ ∃ first ∈ letters, ∃ middle, ∃ last ∈ letters ++ digits,
      ((1 ≤ middle.length ∧ middle.length ≤ 48) ∧ ∀ c ∈ middle, c ∈ letters ++ digits ++ ['-']) ∧
      text = first :: (middle ++ [last]) := by
  rw [namePattern, RegularExpression.matches'_mul, Language.mem_mul]
  constructor
  · rintro ⟨_, hfront, _, hback, rfl⟩
    obtain ⟨_, hstart, middle, hmiddle, rfl⟩ := Language.mem_mul.1 hfront
    obtain ⟨first, hfirst, rfl⟩ := Pattern.mem_oneOf.1 hstart
    obtain ⟨last, hlast, rfl⟩ := Pattern.mem_oneOf.1 hback
    have hmiddle := (Pattern.mem_times_oneOf (by decide)).1 hmiddle
    exact ⟨first, hfirst, middle, last, hlast, hmiddle, rfl⟩
  · rintro ⟨first, hfirst, middle, last, hlast, hmiddle, rfl⟩
    have hfront : [first] ++ middle ∈ (Pattern.oneOf letters *
        Pattern.times 1 48 (Pattern.oneOf (letters ++ digits ++ ['-']))).matches' :=
      Language.append_mem_mul (Pattern.mem_oneOf.2 ⟨first, hfirst, rfl⟩)
        ((Pattern.mem_times_oneOf (by decide)).2 hmiddle)
    exact ⟨_, hfront, [last], Pattern.mem_oneOf.2 ⟨last, hlast, rfl⟩, rfl⟩

/-- The names that match the pattern are the proper ones. -/
theorem matches_namePattern_iff : name.toList ∈ namePattern.matches' ↔ IsProperName name := by
  rw [mem_namePattern]
  constructor
  · rintro ⟨first, hfirst, middle, last, hlast, ⟨⟨hlow, hhigh⟩, hmiddle⟩, heq⟩
    have hlength : name.toList.length = middle.length + 2 := by simp [heq]
    refine ⟨by omega, fun c hc => ?_, ⟨first, hfirst, by rw [heq]; rfl⟩, fun hhyphen => ?_⟩
    · rw [heq, List.mem_cons, List.mem_append, List.mem_singleton] at hc
      rcases hc with rfl | hc | rfl
      · exact List.mem_append_left _ (List.mem_append_left _ hfirst)
      · exact hmiddle c hc
      · exact List.mem_append_left _ hlast
    · rw [heq, ← List.cons_append, List.getLast?_concat] at hhyphen
      obtain rfl := Option.some.inj hhyphen
      exact absurd hlast (by decide)
  · rintro ⟨⟨hlow, hhigh⟩, hall, ⟨first, hfirst, hhead⟩, hlast⟩
    obtain ⟨rest, heq⟩ := List.head?_eq_some_iff.1 hhead
    have hlength : name.toList.length = rest.length + 1 := by rw [heq, List.length_cons]
    obtain rfl | ⟨middle, last, rfl⟩ := List.eq_nil_or_concat rest
    · rw [List.length_nil] at hlength
      omega
    · rw [List.concat_eq_append] at heq hlength
      rw [List.length_append, List.length_singleton] at hlength
      rw [heq, List.forall_mem_cons, List.forall_mem_append, List.forall_mem_singleton] at hall
      rw [heq, ← List.cons_append, List.getLast?_concat] at hlast
      obtain ⟨-, hmiddle, hend⟩ := hall
      have hend := (List.mem_append.1 hend).resolve_right fun hhyphen =>
        hlast (congrArg some (List.mem_singleton.1 hhyphen))
      exact ⟨first, hfirst, middle, last, hend, ⟨⟨by omega, by omega⟩, hmiddle⟩, heq⟩

/-- The rule for names accepts the proper ones. -/
theorem checkName_eq_ok : checkName name = .ok () ↔ IsProperName name := by
  rw [checkName, ← isName_iff]
  split
  · next hname => exact ⟨fun _ => hname, fun _ => rfl⟩
  · next hname => exact ⟨nofun, fun h => absurd h hname⟩

end Rules

end TraceWatch
