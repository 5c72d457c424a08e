import TraceWatch.Proofs.Text.Hexadecimal
import TraceWatch.Text.Octets

/-!
# Octets and escapes read back

The octets of a text are read back as the text (`Text.decode?_octets`), so a text is determined by
them. A text with its escapes is read as the octets of the text, provided that nothing in it was an
escape already (`Text.HasEscape`); if something was, it is read as fewer octets
(`Text.percentDecode_percentEncode`).
-/

namespace TraceWatch.Text

/-! ## Octets -/

theorem toNat_lt (c : Char) : c.toNat < 0x110000 := by
  have hvalid := c.valid
  simp only [UInt32.isValidChar, Nat.isValidChar] at hvalid
  change c.val.toNat < _
  omega

/-- What holds of each character of ASCII can be checked one by one. -/
theorem of_forall_ascii {p : Char → Prop} (h : ∀ n < 0x80, p (Char.ofNat n)) {c : Char}
    (hc : c.toNat < 0x80) : p c := by
  have hchar := h c.toNat hc
  rwa [Char.ofNat_toNat] at hchar

theorem octets_lt {c : Char} {octet : Nat} (h : octet ∈ octets c) : octet < 256 := by
  have hmax := toNat_lt c
  unfold octets at h
  dsimp only at h
  split at h
  · simp at h
    omega
  split at h
  · simp at h
    omega
  split at h
  · simp at h
    omega
  · simp at h
    omega

theorem one_le_length_octets (c : Char) : 1 ≤ (octets c).length := by
  unfold octets
  dsimp only
  split
  · simp
  split
  · simp
  split <;> simp

section

variable {octet value least due : Nat} {rest : List Nat}

theorem isContinuation_iff : isContinuation octet = true ↔ 0x80 ≤ octet ∧ octet < 0xC0 := by
  simp [isContinuation]

/-- An octet that is not the last of its character adds six bits. -/
theorem decodeFrom?_continue (hdue : 1 < due) (h : isContinuation octet = true) :
    decodeFrom? due value least (octet :: rest) =
      decodeFrom? (due - 1) (value * 0x40 + (octet - 0x80)) least rest := by
  rw [decodeFrom?, if_neg (by omega), if_pos h]
  exact if_neg (by omega)

/-- The last octet of a character adds six bits, and the character is read. -/
theorem decodeFrom?_last {c : Char} (h : isContinuation octet = true)
    (hvalue : value * 0x40 + (octet - 0x80) = c.toNat) (hleast : least ≤ c.toNat) :
    decodeFrom? 1 value least (octet :: rest) = (decodeFrom? 0 0 0 rest).map (c :: ·) := by
  rw [decodeFrom?, if_neg (by omega), if_pos h]
  dsimp only
  rw [if_pos rfl, hvalue, if_pos ⟨hleast, c.valid⟩, Char.ofNat_toNat]

end

/-- A character is read back from its octets. -/
theorem decodeFrom?_octets (c : Char) (rest : List Nat) :
    decodeFrom? 0 0 0 (octets c ++ rest) = (decodeFrom? 0 0 0 rest).map (c :: ·) := by
  have hmax := toNat_lt c
  unfold octets
  dsimp only
  split
  · next hone =>
    rw [List.singleton_append, decodeFrom?, if_pos rfl, if_pos hone, Char.ofNat_toNat]
  split
  · next hone htwo =>
    simp only [List.cons_append, List.nil_append]
    rw [decodeFrom?, if_pos rfl, if_neg (by omega), if_neg (by omega), if_pos (by omega)]
    exact decodeFrom?_last (isContinuation_iff.2 (by omega)) (by omega) (by omega)
  split
  · next hone htwo hthree =>
    simp only [List.cons_append, List.nil_append]
    rw [decodeFrom?, if_pos rfl, if_neg (by omega), if_neg (by omega), if_neg (by omega),
      if_pos (by omega), decodeFrom?_continue (by decide) (isContinuation_iff.2 (by omega))]
    exact decodeFrom?_last (isContinuation_iff.2 (by omega)) (by omega) (by omega)
  · next hone htwo hthree =>
    simp only [List.cons_append, List.nil_append]
    rw [decodeFrom?, if_pos rfl, if_neg (by omega), if_neg (by omega), if_neg (by omega),
      if_neg (by omega), if_pos (by omega),
      decodeFrom?_continue (by decide) (isContinuation_iff.2 (by omega)),
      decodeFrom?_continue (by decide) (isContinuation_iff.2 (by omega))]
    exact decodeFrom?_last (isContinuation_iff.2 (by omega)) (by omega) (by omega)

/-- A text is read back from its octets. -/
theorem decode?_octets : ∀ text : List Char, decode? (text.flatMap octets) = some text
  | [] => rfl
  | c :: rest => by
    have hrest := decode?_octets rest
    rw [decode?] at hrest ⊢
    rw [List.flatMap_cons, decodeFrom?_octets, hrest, Option.map_some]

/-- A text is determined by its octets. -/
theorem flatMap_octets_inj {text text' : List Char} :
    text.flatMap octets = text'.flatMap octets ↔ text = text' := by
  refine ⟨fun h => Option.some.inj ?_, congrArg _⟩
  rw [← decode?_octets, h, decode?_octets]

/-! ## Escapes -/

/-- Somewhere in the text `%` stands before two hexadecimal digits. -/
def HasEscape (text : List Char) : Prop :=
  ∃ before a b after, text = before ++ '%' :: a :: b :: after ∧ (hexNumber? [a, b]).isSome = true

section

variable {text rest : List Char} {c a b : Char} {octet : Nat}

theorem hexNumber?_pair (a b : Char) :
    hexNumber? [a, b] = (hexValue? a).bind fun m => (hexValue? b).map (m * 16 + ·) := by
  cases ha : hexValue? a <;> cases hb : hexValue? b <;> simp [hexNumber?, ha, hb]

theorem isSome_hexNumber?_pair (h : (hexNumber? [a, b]).isSome = true) :
    (hexValue? a).isSome = true ∧ (hexValue? b).isSome = true := by
  rw [hexNumber?_pair] at h
  cases ha : hexValue? a <;> cases hb : hexValue? b <;> simp [ha, hb] at h ⊢

/-- The hexadecimal digits in ASCII. -/
theorem range_of_hexValue? (h : (hexValue? c).isSome = true) :
    (48 ≤ c.toNat ∧ c.toNat ≤ 57) ∨ (97 ≤ c.toNat ∧ c.toNat ≤ 102) ∨
      (65 ≤ c.toNat ∧ c.toNat ≤ 70) := by
  have hrange : ('0' ≤ c ∧ c ≤ '9') ∨ ('a' ≤ c ∧ c ≤ 'f') ∨ ('A' ≤ c ∧ c ≤ 'F') := by
    unfold hexValue? at h
    split at h
    · exact .inl ‹_›
    split at h
    · exact .inr (.inl ‹_›)
    split at h
    · exact .inr (.inr ‹_›)
    · cases h
  simp only [Char.le_def, UInt32.le_iff_toNat_le] at hrange
  exact hrange

theorem lt_of_hexValue? (h : (hexValue? c).isSome = true) : c.toNat < 0x80 := by
  have hrange := range_of_hexValue? h
  omega

theorem ne_percent_of_hexValue? (h : (hexValue? c).isSome = true) : c ≠ '%' := by
  rintro rfl
  cases h

theorem percentDecode_cons (hc : c ≠ '%') :
    percentDecode (c :: rest) = octets c ++ percentDecode rest := by
  rw [percentDecode]
  rintro a b rest' rfl
  exact absurd rfl hc

/-- Before two hexadecimal digits, `%` is read as an octet with them. -/
theorem percentDecode_of_some (h : hexNumber? [a, b] = some octet) :
    percentDecode ('%' :: a :: b :: rest) = octet :: percentDecode rest := by
  rw [percentDecode, h]

/-- Elsewhere `%` is read as itself. -/
theorem percentDecode_of_not
    (h : ∀ a b rest', rest = a :: b :: rest' → hexNumber? [a, b] = none) :
    percentDecode ('%' :: rest) = '%'.toNat :: percentDecode rest := by
  match rest with
  | [] => rfl
  | [_] => rfl
  | a :: b :: rest' => rw [percentDecode, h a b rest' rfl]

/-- An octet is read back from its escape. -/
theorem percentDecode_percentOctet (hoctet : octet < 256) :
    percentDecode (percentOctet octet ++ rest) = octet :: percentDecode rest := by
  refine percentDecode_of_some ?_
  rw [hexNumber?_pair, hexValue?_upperHexDigit, hexValue?_upperHexDigit]
  simp only [Option.bind_some, Option.map_some, Option.some.injEq]
  omega

/-- Octets are read back from their escapes. -/
theorem percentDecode_flatMap : ∀ {row : List Nat}, (∀ octet ∈ row, octet < 256) →
    percentDecode (row.flatMap percentOctet ++ rest) = row ++ percentDecode rest
  | [], _ => rfl
  | octet :: row, h => by
    obtain ⟨hoctet, hrow⟩ := List.forall_mem_cons.1 h
    rw [List.flatMap_cons, List.append_assoc, percentDecode_percentOctet hoctet,
      percentDecode_flatMap hrow, List.cons_append]

/-- A text has an escape at its beginning or after its first character. -/
theorem hasEscape_cons : HasEscape (c :: rest) ↔ HasEscape rest ∨
    c = '%' ∧ ∃ a b after, rest = a :: b :: after ∧ (hexNumber? [a, b]).isSome = true := by
  constructor
  · rintro ⟨before, a, b, after, heq, hescape⟩
    cases before with
    | nil =>
      cases heq
      exact .inr ⟨rfl, a, b, after, rfl, hescape⟩
    | cons first before =>
      obtain ⟨-, rfl⟩ := List.cons.inj heq
      exact .inl ⟨before, a, b, after, rfl, hescape⟩
  · rintro (⟨before, a, b, after, rfl, hescape⟩ | ⟨rfl, a, b, after, rfl, hescape⟩)
    · exact ⟨c :: before, a, b, after, rfl, hescape⟩
    · exact ⟨[], a, b, after, rfl, hescape⟩

end

section

variable {escapes : Char → Bool} {c a b : Char} {rest : List Char}

theorem percentEncode_cons (escapes : Char → Bool) (c : Char) (rest : List Char) :
    percentEncode escapes (c :: rest) =
      (if 0x80 ≤ c.toNat || escapes c then (octets c).flatMap percentOctet else [c]) ++
        percentEncode escapes rest := List.flatMap_cons

theorem percentEncode_cons_of_not (hlow : c.toNat < 0x80) (hc : escapes c = false) :
    percentEncode escapes (c :: rest) = c :: percentEncode escapes rest := by
  rw [percentEncode_cons, hc, if_neg (by simp; omega), List.singleton_append]

/-- What stands for a character that is not `%` is read as its octets. -/
theorem percentDecode_percentEncode_cons (hc : c ≠ '%') :
    percentDecode (percentEncode escapes (c :: rest)) =
      octets c ++ percentDecode (percentEncode escapes rest) := by
  rw [percentEncode_cons]
  split
  · exact percentDecode_flatMap fun _ => octets_lt
  · exact percentDecode_cons hc

/-- A hexadecimal digit at the beginning of a text with its escapes is one of the text itself. -/
theorem exists_of_percentEncode_eq {text : List Char} (ha : (hexValue? a).isSome = true)
    (h : percentEncode escapes text = a :: rest) :
    ∃ rest', text = a :: rest' ∧ percentEncode escapes rest' = rest := by
  cases text with
  | nil => cases h
  | cons c text =>
    rw [percentEncode_cons] at h
    split at h
    · -- an escape begins with `%`
      obtain ⟨octet, row, hrow⟩ := List.exists_cons_of_length_pos (one_le_length_octets c)
      rw [hrow] at h
      exact absurd (List.cons.inj h).1.symm (ne_percent_of_hexValue? ha)
    · obtain ⟨rfl, hrest⟩ := List.cons.inj (List.singleton_append.symm.trans h)
      exact ⟨text, rfl, hrest⟩

end

section

variable {escapes : Char → Bool}

/-- Before two hexadecimal digits, `%` is read as an octet with them, as it is not escaped. -/
theorem length_percentDecode_lt {a b : Char} {after : List Char} (hpercent : escapes '%' = false)
    (hdigits : ∀ c, (hexValue? c).isSome = true → escapes c = false)
    (hescape : (hexNumber? [a, b]).isSome = true)
    (hafter : (percentDecode (percentEncode escapes after)).length ≤
      (after.flatMap octets).length) :
    (percentDecode (percentEncode escapes ('%' :: a :: b :: after))).length <
      (('%' :: a :: b :: after).flatMap octets).length := by
  obtain ⟨ha, hb⟩ := isSome_hexNumber?_pair hescape
  obtain ⟨octet, hoctet⟩ := Option.isSome_iff_exists.1 hescape
  rw [percentEncode_cons_of_not (by decide) hpercent,
    percentEncode_cons_of_not (lt_of_hexValue? ha) (hdigits a ha),
    percentEncode_cons_of_not (lt_of_hexValue? hb) (hdigits b hb), percentDecode_of_some hoctet]
  simp only [List.flatMap_cons, List.length_append, List.length_cons]
  have hlengths := And.intro (one_le_length_octets '%') (one_le_length_octets a)
  omega

/-- Elsewhere `%` is read as itself. -/
theorem percentDecode_percentEncode_percent {rest : List Char} (hpercent : escapes '%' = false)
    (hnot : ¬ ∃ a b after, rest = a :: b :: after ∧ (hexNumber? [a, b]).isSome = true) :
    percentDecode (percentEncode escapes ('%' :: rest)) =
      octets '%' ++ percentDecode (percentEncode escapes rest) := by
  rw [percentEncode_cons_of_not (by decide) hpercent]
  refine percentDecode_of_not fun a b after heq => ?_
  refine Option.not_isSome_iff_eq_none.1 fun hescape => ?_
  obtain ⟨ha, hb⟩ := isSome_hexNumber?_pair hescape
  obtain ⟨rest', rfl, hrest⟩ := exists_of_percentEncode_eq ha heq
  obtain ⟨after', rfl, -⟩ := exists_of_percentEncode_eq hb hrest
  exact hnot ⟨a, b, after', rfl, hescape⟩

/-- A text that is written with its escapes, where neither `%` nor a hexadecimal digit is escaped,
is read as its octets; if it had an escape already, it is read as fewer. -/
theorem percentDecode_percentEncode (hpercent : escapes '%' = false)
    (hdigits : ∀ c, (hexValue? c).isSome = true → escapes c = false) :
    ∀ text : List Char,
      (¬ HasEscape text ∧
        percentDecode (percentEncode escapes text) = text.flatMap octets) ∨
      (HasEscape text ∧
        (percentDecode (percentEncode escapes text)).length < (text.flatMap octets).length)
  | [] => by
    refine .inl ⟨fun ⟨before, a, b, after, heq, _⟩ => ?_, rfl⟩
    cases before <;> cases heq
  | c :: rest => by
    have hrest := percentDecode_percentEncode hpercent hdigits rest
    by_cases hescape : c = '%' ∧
        ∃ a b after, rest = a :: b :: after ∧ (hexNumber? [a, b]).isSome = true
    · have hhas : HasEscape (c :: rest) := hasEscape_cons.2 (.inr hescape)
      obtain ⟨rfl, a, b, after, rfl, hsome⟩ := hescape
      refine .inr ⟨hhas, length_percentDecode_lt hpercent hdigits hsome ?_⟩
      rcases percentDecode_percentEncode hpercent hdigits after with ⟨-, heq⟩ | ⟨-, hlt⟩
      · exact Nat.le_of_eq (congrArg List.length heq)
      · exact Nat.le_of_lt hlt
    · have hread : percentDecode (percentEncode escapes (c :: rest)) =
          octets c ++ percentDecode (percentEncode escapes rest) := by
        by_cases hc : c = '%'
        · subst hc
          exact percentDecode_percentEncode_percent hpercent fun h => hescape ⟨rfl, h⟩
        · exact percentDecode_percentEncode_cons hc
      rw [hread, List.flatMap_cons, hasEscape_cons, or_iff_left hescape]
      rcases hrest with ⟨hnot, heq⟩ | ⟨hhas, hlt⟩
      · exact .inl ⟨hnot, by rw [heq]⟩
      · refine .inr ⟨hhas, ?_⟩
        rw [List.length_append, List.length_append]
        exact Nat.add_lt_add_left hlt _

end

end TraceWatch.Text
