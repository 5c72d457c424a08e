import TraceWatch.Proofs.Text.Octets
import TraceWatch.Proofs.Text.Parts
import TraceWatch.Yaml.Printer
import TraceWatch.Yaml.Scalar.Quoted

/-!
# Texts by their spelling

A text can be told from how it is written: `Block.renderText_inj`. Its first character tells
between quotes, literal blocks and plain texts. What stands between double quotes is read back by
`Quoted.read?`; in single quotes and in literal blocks the indentation of each line is known. So two
documents that differ in one value are written alike only if the value is (`Block.render_inj`).
-/

namespace TraceWatch.Yaml

namespace Quoted

/-! ## Double quotes -/

section

variable {double : Bool} {seen rest : List Char}

/-- The digits of an escape are read as the character whose number they are. -/
theorem readFrom?_digits {c : Char} : ∀ {row : List Char} {value : Nat}, row ≠ [] →
    row.foldlM (fun value d => (Text.hexValue? d).map (value * 16 + ·)) value = some c.toNat →
    readFrom? double seen (.digits row.length value) (row ++ rest) =
      readFrom? double (c :: seen) (.text .empty false) rest
  | [], _, hne, _ => absurd rfl hne
  | [d], value, _, h => by
    cases hd : Text.hexValue? d with
    | none => simp [hd] at h
    | some digit =>
      have hvalue : value * 16 + digit = c.toNat := by simpa [hd] using h
      have hvalid : c.toNat.isValidChar := c.valid
      rw [List.singleton_append, readFrom?.eq_def]
      simp only [hd, List.length_singleton, if_true, hvalue]
      rw [if_pos hvalid, Char.ofNat_toNat]
  | d :: e :: row, value, _, h => by
    cases hd : Text.hexValue? d with
    | none => simp [hd] at h
    | some digit =>
      have hrest : (e :: row).foldlM (fun value d => (Text.hexValue? d).map (value * 16 + ·))
          (value * 16 + digit) = some c.toNat := by simpa [hd] using h
      rw [List.cons_append, readFrom?.eq_def]
      simp only [hd, List.length_cons, Nat.add_sub_cancel]
      rw [if_neg (by omega)]
      exact readFrom?_digits (List.cons_ne_nil e row) hrest

/-- An escape with the number of a character is read as the character. -/
theorem readFrom?_number {letter c : Char} {count : Nat} (hletter : isBreak letter = false)
    (hcount : digitCount? letter = some count) (hpos : 0 < count) (hlt : c.toNat < 16 ^ count) :
    readFrom? double seen .backslash (letter :: (List.range count).map (fun i =>
        Text.upperHexDigit (c.toNat / Nat.pow 16 (count - 1 - i))) ++ rest) =
      readFrom? double (c :: seen) (.text .empty false) rest := by
  have hrow := Text.hexNumber?_digits Text.hexValue?_upperHexDigit count c.toNat
  rw [Nat.mod_eq_of_lt hlt] at hrow
  rw [List.cons_append, readFrom?.eq_def]
  simp only [hletter, hcount, Bool.false_eq_true, if_false]
  have hlength : ((List.range count).map fun i =>
      Text.upperHexDigit (c.toNat / Nat.pow 16 (count - 1 - i))).length = count := by simp
  have hne : (List.range count).map (fun i =>
      Text.upperHexDigit (c.toNat / Nat.pow 16 (count - 1 - i))) ≠ [] := by
    intro hnil
    rw [hnil, List.length_nil] at hlength
    omega
  refine Eq.trans ?_ (readFrom?_digits hne hrow)
  rw [hlength]

/-- An escape is read as the character it stands for. -/
theorem readFrom?_escape (c : Char) : readFrom? double seen .backslash (Block.escape c ++ rest) =
    readFrom? double (c :: seen) (.text .empty false) rest := by
  have hmax := Text.toNat_lt c
  unfold Block.escape
  dsimp only
  split
  case h_15 =>
    split
    · next hle => exact readFrom?_number rfl rfl (by decide) (by omega)
    split
    · next hle => exact readFrom?_number rfl rfl (by decide) (by omega)
    · exact readFrom?_number rfl rfl (by decide) (by omega)
  all_goals rfl

/-- After blanks, a character that is neither spacing nor a sign is read as itself. -/
theorem readFrom?_plain {c : Char} {blanks : List Char} (hspacing : isSpacing c = false)
    (hquote : c ≠ '"') (hbackslash : c ≠ '\\') :
    readFrom? true seen (.text (.blanks blanks) false) (c :: rest) =
      readFrom? true (c :: (blanks ++ seen)) (.text .empty false) rest := by
  rw [readFrom?.eq_def]
  simp [hspacing, hquote, hbackslash, Gap.folded]

/-- What is written between double quotes is read back, up to the closing quote. -/
theorem readFrom?_doubleQuoted : ∀ seen blanks text : List Char,
    readFrom? true seen (.text (.blanks blanks) false) (Block.doubleQuoted text ++ '"' :: rest) =
      some (seen.reverse ++ blanks.reverse ++ text, rest)
  | seen, blanks, [] => by
    rw [Block.doubleQuoted, List.flatMap_nil, List.nil_append, readFrom?.eq_def]
    simp [isSpacing, isBlank, isBreak, Gap.folded]
  | seen, blanks, c :: text => by
    rw [Block.doubleQuoted, List.flatMap_cons, List.append_assoc, ← Block.doubleQuoted]
    split
    · -- A sign of its own, a line break or a character that cannot be shown.
      calc readFrom? true seen (.text (.blanks blanks) false)
            ('\\' :: (Block.escape c ++ (Block.doubleQuoted text ++ '"' :: rest)))
        _ = readFrom? true (blanks ++ seen) .backslash
            (Block.escape c ++ (Block.doubleQuoted text ++ '"' :: rest)) := by
          rw [readFrom?.eq_def]
          rfl
        _ = _ := by
          rw [readFrom?_escape, Gap.empty, readFrom?_doubleQuoted]
          simp
    · next hplain =>
      simp only [Bool.or_eq_true, Bool.not_eq_true', decide_eq_true_eq, not_or] at hplain
      obtain ⟨⟨⟨hprintable, hbreak⟩, hquote⟩, hbackslash⟩ := hplain
      by_cases hspace : c = ' '
      · calc readFrom? true seen (.text (.blanks blanks) false)
              (c :: (Block.doubleQuoted text ++ '"' :: rest))
          _ = readFrom? true seen (.text (.blanks (' ' :: blanks)) false)
              (Block.doubleQuoted text ++ '"' :: rest) := by
            rw [hspace, readFrom?.eq_def]
            rfl
          _ = _ := by
            rw [readFrom?_doubleQuoted, hspace]
            simp
      · have htab : c ≠ '\t' := by
          rintro rfl
          exact hprintable rfl
        have hspacing : isSpacing c = false := by
          simp [isSpacing, isBlank, hspace, htab, hbreak]
        rw [List.singleton_append, readFrom?_plain hspacing hquote hbackslash, Gap.empty,
          readFrom?_doubleQuoted]
        simp

/-- What is written between double quotes is the text that is read there. -/
theorem read?_doubleQuoted (text : List Char) :
    read? true (Block.doubleQuoted text ++ '"' :: rest) = some (text, rest) :=
  readFrom?_doubleQuoted [] [] text

end

end Quoted

namespace Block

section

variable {indent : Nat}

/-- Texts are written alike between double quotes only if they are the same. -/
theorem doubleQuoted_inj {row row' : List Char} (h : doubleQuoted row = doubleQuoted row') :
    row = row' := by
  have hread : Quoted.read? true (doubleQuoted row ++ ['"']) = some (row, []) :=
    Quoted.read?_doubleQuoted row
  rw [h, Quoted.read?_doubleQuoted] at hread
  exact (congrArg Prod.fst (Option.some.inj hread)).symm

/-! ## Single quotes and literal blocks -/

/-- What stands before the first character of a line: its indentation, if it has just begun. -/
def lead (indent : Nat) (lineStart : Bool) : List Char := if lineStart then spaces indent else []

theorem isBreak_of_mem_lead {lineStart : Bool} {c : Char} (hc : c ∈ lead indent lineStart) :
    isBreak c = false := by
  rw [lead] at hc
  split at hc
  · rw [List.eq_of_mem_replicate hc]
    rfl
  · cases hc

/-- A way to write a text in lines: a line break stands as it is, and the next line is indented by
`indent` before its first character. -/
structure IsInLines (indent : Nat) (f : Bool → List Char → List Char) : Prop where
  ends : ∀ lineStart, f lineStart [] <+: lead indent lineStart
  breaks : ∀ lineStart c row, isBreak c = true → f lineStart (c :: row) = c :: f true row
  writes : ∀ c, isBreak c = false → ∃ more, ∀ lineStart row,
    f lineStart (c :: row) = lead indent lineStart ++ c :: more ++ f false row

namespace IsInLines

variable {f : Bool → List Char → List Char} (hf : IsInLines indent f)

include hf

/-- No text is written like the empty one. -/
theorem ne_nil (lineStart : Bool) (c : Char) (row : List Char) :
    f lineStart [] ≠ f lineStart (c :: row) := by
  intro h
  have hends := h ▸ hf.ends lineStart
  cases hc : isBreak c with
  | true =>
    rw [hf.breaks lineStart c row hc] at hends
    have hlead := isBreak_of_mem_lead (hends.subset List.mem_cons_self)
    rw [hc] at hlead
    cases hlead
  | false =>
    obtain ⟨more, hmore⟩ := hf.writes c hc
    have hlength := hends.length_le
    rw [hmore] at hlength
    simp only [List.length_append, List.length_cons] at hlength
    omega

/-- A text that starts with a line break is written differently from one that does not. -/
theorem ne_of_isBreak {c d : Char} (hc : isBreak c = true) (hd : isBreak d = false)
    (lineStart : Bool) (row row' : List Char) :
    f lineStart (c :: row) ≠ f lineStart (d :: row') := by
  intro h
  obtain ⟨more, hmore⟩ := hf.writes d hd
  rw [hf.breaks lineStart c row hc, hmore] at h
  have hfirst : isBreak c = false := by
    cases hlead : lead indent lineStart with
    | nil =>
      rw [hlead] at h
      rw [(List.cons.inj h).1, hd]
    | cons e others =>
      rw [hlead] at h
      rw [(List.cons.inj h).1]
      exact isBreak_of_mem_lead (hlead ▸ List.mem_cons_self)
  rw [hc] at hfirst
  cases hfirst

/-- Texts are written alike only if they are the same. -/
theorem inj : ∀ {lineStart : Bool} {row row' : List Char},
    f lineStart row = f lineStart row' → row = row'
  | _, [], [], _ => rfl
  | lineStart, [], c :: row, h => absurd h (hf.ne_nil lineStart c row)
  | lineStart, c :: row, [], h => absurd h.symm (hf.ne_nil lineStart c row)
  | lineStart, c :: row, d :: row', h => by
    cases hc : isBreak c <;> cases hd : isBreak d
    case true.true =>
      rw [hf.breaks lineStart c row hc, hf.breaks lineStart d row' hd] at h
      obtain ⟨rfl, hrest⟩ := List.cons.inj h
      rw [inj hrest]
    case true.false => exact absurd h (hf.ne_of_isBreak hc hd lineStart row row')
    case false.true => exact absurd h.symm (hf.ne_of_isBreak hd hc lineStart row' row)
    case false.false =>
      obtain ⟨more, hmore⟩ := hf.writes c hc
      obtain ⟨more', hmore'⟩ := hf.writes d hd
      have hcons := h
      rw [hmore, hmore', List.append_assoc, List.append_assoc, List.append_cancel_left_eq] at hcons
      obtain ⟨rfl, -⟩ := List.cons.inj hcons
      rw [hmore, hmore, List.append_cancel_left_eq] at h
      rw [inj h]

end IsInLines

/-- In single quotes a quote is written twice. -/
theorem singleQuoted_isInLines : IsInLines indent (singleQuoted indent) where
  ends _ := List.prefix_rfl
  breaks lineStart c row hc := by rw [singleQuoted, if_pos hc]
  writes c hc := by
    refine ⟨if c = '\'' then ['\''] else [], fun lineStart row => ?_⟩
    have hquote : (if c = '\'' then ['\'', '\''] else [c]) =
        c :: if c = '\'' then ['\''] else [] := by split <;> simp [*]
    rw [singleQuoted, if_neg (by simp [hc]), hquote]
    rfl

/-- In a literal block every character is written as it is. -/
theorem literalLines_isInLines : IsInLines indent (literalLines indent) where
  ends _ := List.nil_prefix
  breaks lineStart c row hc := by rw [literalLines, if_pos hc]
  writes c hc := by
    refine ⟨[], fun lineStart row => ?_⟩
    rw [literalLines, if_neg (by simp [hc]), lead, List.append_assoc]
    rfl

/-! ## Spellings -/

/-- The sign that a spelling starts with. -/
def Spelling.mark? : Spelling → Option Char
  | .plain => none
  | .singleQuotes => some '\''
  | .doubleQuotes => some '"'
  | .literal => some '|'

theorem Spelling.eq_of_mark? {a b : Spelling} (h : a.mark? = b.mark?) : a = b := by
  cases a <;> cases b <;> simp_all [mark?]

/-- The sign of a spelling that stands at the beginning. -/
def mark? (row : List Char) : Option Char :=
  row.head?.filter fun c => c = '\'' || c = '"' || c = '|'

/-- A plain text is not empty, and it starts with none of the signs. -/
theorem mark?_of_plain {text : String} (h : spelling text = .plain) (rest : List Char) :
    mark? (text.toList ++ rest) = none := by
  have hplain : Word.isSpecial text = false ∧ allowsPlain text.toList = true := by
    unfold spelling at h
    dsimp only at h
    split at h
    · split at h <;> cases h
    split at h
    · next hallowed => simpa using hallowed
    split at h <;> cases h
  cases hrow : text.toList with
  | nil =>
    have hspecial := hplain.1
    simp [Word.isSpecial, hrow] at hspecial
  | cons c row =>
    have hstart : isStartIndicator c = false := by
      have hallowed := hplain.2
      simp only [hrow, allowsPlain, hasStartIndicator, Bool.not_eq_true', Bool.or_eq_false_iff]
        at hallowed
      exact hallowed.1.2.1
    simp only [isStartIndicator, Bool.or_eq_false_iff, decide_eq_false_iff_not] at hstart
    simp [mark?, hstart]

/-- The first character tells how a text is written. -/
theorem mark?_renderText (indent : Nat) (text : String) :
    mark? (renderText indent text) = (spelling text).mark? := by
  unfold renderText
  dsimp only
  cases h : spelling text with
  | plain => exact mark?_of_plain h _
  | singleQuotes => rfl
  | doubleQuotes => rfl
  | literal => rfl

/-- The signs of a literal block: one for its indentation, if it needs one, and one for the line
breaks at its end. -/
theorem literalSigns_eq (row : List Char) : ∃ indentation chomping,
    literalSigns row = indentation ++ chomping ∧ (indentation = [] ∨ indentation = ['2']) ∧
      if row.getLast?.any isBreak then chomping = [] ∨ chomping = ['+'] else chomping = ['-'] := by
  refine ⟨_, _, rfl, ?_, ?_⟩
  · split
    · split <;> simp
    · exact .inl rfl
  · rw [← List.head?_reverse]
    cases row.reverse with
    | nil => simp
    | cons c others =>
      cases others with
      | nil => cases hc : isBreak c <;> simp [hc]
      | cons d _ => cases hc : isBreak c <;> cases hd : isBreak d <;> simp [hc, hd]

/-- No line ends among the signs of a literal block. -/
theorem notMem_literalSigns (row : List Char) : '\n' ∉ literalSigns row := by
  obtain ⟨indentation, chomping, heq, hindentation, hchomping⟩ := literalSigns_eq row
  rw [heq]
  grind

/-- The signs of a literal block tell whether the text ends with a line break. -/
theorem any_isBreak_getLast? (row : List Char) :
    row.getLast?.any isBreak = decide ('-' ∉ literalSigns row) := by
  obtain ⟨indentation, chomping, heq, hindentation, hchomping⟩ := literalSigns_eq row
  rw [heq]
  grind

/-- A text can be told from how it is written. -/
theorem renderText_inj {text text' : String}
    (h : renderText indent text = renderText indent text') : text = text' := by
  have hspelling : spelling text = spelling text' := by
    have hmark := mark?_renderText indent text
    rw [h, mark?_renderText] at hmark
    exact Spelling.eq_of_mark? hmark.symm
  refine String.toList_inj.1 ?_
  simp only [renderText] at h
  rw [← hspelling] at h
  cases hs : spelling text <;> simp only [hs] at h
  case plain => exact List.append_cancel_right h
  case singleQuotes =>
    exact singleQuoted_isInLines.inj (List.append_cancel_right (List.cons.inj h).2)
  case doubleQuotes => exact doubleQuoted_inj (List.append_cancel_right (List.cons.inj h).2)
  case literal =>
    simp only [List.cons_append, List.append_assoc] at h
    obtain ⟨hsigns, hlines⟩ := Text.append_cons_inj (notMem_literalSigns _)
      (notMem_literalSigns _) (List.cons.inj h).2
    have hends : text.toList.getLast?.any isBreak = text'.toList.getLast?.any isBreak := by
      simp only [any_isBreak_getLast?, hsigns]
    rw [hends] at hlines
    exact literalLines_isInLines.inj (List.append_cancel_right hlines)

/-! ## Documents -/

theorem renderEntries_append (front back : List (String × Block)) :
    renderEntries indent (front ++ back) =
      renderEntries indent front ++ renderEntries indent back := by
  induction front with
  | nil => rfl
  | cons entry front ih =>
    rw [List.cons_append, renderEntries, renderEntries, ih]
    simp only [List.append_assoc]

/-- Entries that differ in one value are written alike just where the value is. -/
theorem renderEntries_inj (front back : List (String × Block)) (key : String)
    {value value' : Block} :
    renderEntries indent (front ++ (key, value) :: back) =
      renderEntries indent (front ++ (key, value') :: back) ↔
    renderValue indent value = renderValue indent value' := by
  rw [renderEntries_append, renderEntries_append, renderEntries, renderEntries]
  simp

theorem renderValue_mapping {entries : List (String × Block)} (h : entries ≠ []) :
    renderValue indent (.mapping entries) = '\n' :: renderEntries (indent + 2) entries := by
  cases entries with
  | nil => exact absurd rfl h
  | cons entry entries => rfl

/-- The same of the mapping that the entries make up. -/
theorem renderValue_mapping_inj (front back : List (String × Block)) (key : String)
    {value value' : Block} :
    renderValue indent (.mapping (front ++ (key, value) :: back)) =
      renderValue indent (.mapping (front ++ (key, value') :: back)) ↔
    renderValue (indent + 2) value = renderValue (indent + 2) value' := by
  rw [renderValue_mapping (by simp), renderValue_mapping (by simp), List.cons_inj_right,
    renderEntries_inj]

theorem renderValue_text_inj {text text' : String} :
    renderValue indent (.text text) = renderValue indent (.text text') ↔ text = text' := by
  rw [renderValue, renderValue, List.cons_inj_right]
  exact ⟨renderText_inj, congrArg _⟩

/-- The same of the document that the entries make up. -/
theorem render_inj (front back : List (String × Block)) (key : String) {value value' : Block} :
    render (front ++ (key, value) :: back) = render (front ++ (key, value') :: back) ↔
      renderValue 0 value = renderValue 0 value' := by
  rw [render, render, String.ofList_inj, renderEntries_inj]

end

end Block

end TraceWatch.Yaml
