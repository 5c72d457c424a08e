import TraceWatch.Proofs.Json.Numbers
import TraceWatch.Proofs.Text.Hexadecimal

/-!
# The words of a written document

A written document is a row of words, `Json.tokens`, and the lexer finds just these words in its
text: `Json.tokens?_chars`. A word made of letters and a number have no end of their own; they are
complete only at the character after them, which in a written document is a comma, a bracket or a
brace. `Lexer.Stands` says that the lexer has found some words and would find the last of them
complete at any of those.
-/

namespace TraceWatch.Json

/-! ## Words -/

mutual

/-- The words of a written document. -/
def tokens : Json → List JsonToken
  | .null => [.scalar .null]
  | .bool b => [.scalar (.bool b)]
  | .number n => [.scalar (.number n)]
  | .string s => [.string s]
  | .array items => .openArray :: itemTokens true items
  | .object fields => .openObject :: fieldTokens true fields

/-- The words of the items of an array and its closing bracket. -/
def itemTokens (first : Bool) : List Json → List JsonToken
  | [] => [.closeArray]
  | v :: rest => (if first then [] else [.comma]) ++ tokens v ++ itemTokens false rest

/-- The words of the fields of an object and its closing brace. -/
def fieldTokens (first : Bool) : List (String × Json) → List JsonToken
  | [] => [.closeObject]
  | (k, v) :: rest =>
    (if first then [] else [.comma]) ++ .string k :: .colon :: tokens v ++ fieldTokens false rest

end

mutual

/-- The numbers that occur in a document. -/
def numbers : Json → List JsonNumber
  | .number n => [n]
  | .array items => itemNumbers items
  | .object fields => fieldNumbers fields
  | .null => []
  | .bool _ => []
  | .string _ => []

/-- The numbers that occur in the items of an array. -/
def itemNumbers : List Json → List JsonNumber
  | [] => []
  | v :: rest => numbers v ++ itemNumbers rest

/-- The numbers that occur in the values of an object. -/
def fieldNumbers : List (String × Json) → List JsonNumber
  | [] => []
  | (_, v) :: rest => numbers v ++ fieldNumbers rest

end

/-! ## Strings -/

/-- A run goes on from where its first part ended. -/
theorem foldlM_append_of_eq_some {α σ : Type} {f : σ → α → Option σ} {xs ys : List α} {s t : σ}
    (h : xs.foldlM f s = some t) : (xs ++ ys).foldlM f s = ys.foldlM f t := by
  rw [List.foldlM_append, h]
  rfl

theorem foldlM_cons_of_eq_some {α σ : Type} {f : σ → α → Option σ} {x : α} {xs : List α} {s t : σ}
    (h : f s x = some t) : (x :: xs).foldlM f s = xs.foldlM f t := by
  rw [List.foldlM_cons, h]
  rfl

/-- A digit of a code unit. -/
theorem Lexer.step_hexDigit (found : List JsonToken) (seen : List Char) (value count n : Nat) :
    Lexer.step ⟨found, .unit seen none value count⟩ (Text.hexDigit n) =
      if count = 3 then Lexer.afterUnit found seen none (value * 16 + n % 16)
      else some ⟨found, .unit seen none (value * 16 + n % 16) (count + 1)⟩ := by
  rw [Lexer.step, Text.hexValue?_hexDigit]
  rfl

/-- A control character is found again from the digits it was written with. -/
theorem lex_controlChar (found : List JsonToken) (seen : List Char) {c : Char}
    (hc : c.toNat < 0x20) :
    (['\\', 'u', '0', '0', Text.hexDigit (c.toNat / 16), Text.hexDigit (c.toNat % 16)] :
      List Char).foldlM Lexer.step ⟨found, .text seen⟩ = some ⟨found, .text (c :: seen)⟩ := by
  have hvalue : (0 * 16 + c.toNat / 16 % 16) * 16 + c.toNat % 16 % 16 = c.toNat := by omega
  have hunit : Lexer.afterUnit found seen none c.toNat = some ⟨found, .text (c :: seen)⟩ := by
    rw [Lexer.afterUnit, if_neg (by omega), if_neg (by omega), Char.ofNat_toNat]
  rw [foldlM_cons_of_eq_some (t := ⟨found, .escape seen⟩) rfl,
    foldlM_cons_of_eq_some (t := ⟨found, .unit seen none 0 0⟩) rfl,
    foldlM_cons_of_eq_some (t := ⟨found, .unit seen none 0 1⟩) rfl,
    foldlM_cons_of_eq_some (t := ⟨found, .unit seen none 0 2⟩) rfl,
    foldlM_cons_of_eq_some ((Lexer.step_hexDigit ..).trans (if_neg (by decide))),
    List.foldlM_cons, Lexer.step_hexDigit, if_pos rfl, hvalue, hunit]
  rfl

/-- A character of a string is found again, whether it was written with an escape or not. -/
theorem lex_escapeChar (found : List JsonToken) (seen : List Char) (c : Char) :
    (escapeChar c).foldlM Lexer.step ⟨found, .text seen⟩ = some ⟨found, .text (c :: seen)⟩ := by
  rw [escapeChar]
  split_ifs with hquote hbackslash hbackspace hfeed hline hreturn htab hcontrol
  · subst hquote
    rfl
  · subst hbackslash
    rfl
  · subst hbackspace
    rfl
  · subst hfeed
    rfl
  · subst hline
    rfl
  · subst hreturn
    rfl
  · subst htab
    rfl
  · exact lex_controlChar found seen hcontrol
  · refine foldlM_cons_of_eq_some ?_
    rw [Lexer.step]
    dsimp only
    rw [if_neg hquote, if_neg hbackslash, if_neg hcontrol]

/-- So are all the characters of a string. -/
theorem lex_escapes (found : List JsonToken) : ∀ (cs seen : List Char),
    (cs.flatMap escapeChar).foldlM Lexer.step ⟨found, .text seen⟩ =
      some ⟨found, .text (cs.reverse ++ seen)⟩
  | [], _ => rfl
  | c :: cs, seen => by
    rw [List.flatMap_cons, foldlM_append_of_eq_some (lex_escapeChar found seen c),
      lex_escapes found cs, List.reverse_cons, List.append_assoc]
    rfl

/-- A string is found as one word. -/
theorem lex_renderString (found : List JsonToken) (s : String) :
    (renderString s).foldlM Lexer.step ⟨found, .between⟩ =
      some ⟨.string s :: found, .between⟩ := by
  have hopen : Lexer.step ⟨found, .between⟩ '"' = some ⟨found, .text []⟩ := rfl
  have hclose : Lexer.step ⟨found, .text s.toList.reverse⟩ '"' =
      some ⟨.string s :: found, .between⟩ := by
    rw [Lexer.step]
    dsimp only
    rw [if_pos rfl, List.reverse_reverse, String.ofList_toList]
  have hinside := lex_escapes found s.toList []
  rw [List.append_nil] at hinside
  rw [renderString, List.cons_append, foldlM_cons_of_eq_some hopen,
    foldlM_append_of_eq_some hinside, foldlM_cons_of_eq_some hclose]
  rfl

/-! ## Words without an end of their own -/

/-- The lexer has found some words, back to front, and finds the last of them complete at a comma,
at what closes an array or object and at the end of the text. -/
structure Lexer.Stands (lexer : Lexer) (found : List JsonToken) : Prop where
  next : ∀ c, c = ',' ∨ c = ']' ∨ c = '\x7d' → lexer.step c = Lexer.start found c
  finish : lexer.finish = some found.reverse

theorem Lexer.stands_between (found : List JsonToken) :
    Lexer.Stands ⟨found, .between⟩ found := ⟨fun _ _ => rfl, rfl⟩

theorem Lexer.stands_word (found : List JsonToken) {seen : List Char} {token : JsonToken}
    (h : word? seen = some token) : Lexer.Stands ⟨found, .word seen⟩ (token :: found) := by
  have hlower : ∀ c, c = ',' ∨ c = ']' ∨ c = '\x7d' → ¬ c.isLower = true := by
    rintro c (rfl | rfl | rfl) <;> decide
  refine ⟨fun c hc => ?_, ?_⟩
  · rw [Lexer.step]
    dsimp only
    rw [if_neg (hlower c hc), h]
    rfl
  · rw [Lexer.finish]
    dsimp only
    rw [h]
    rfl

theorem Lexer.stands_number (found : List JsonToken) {seen : List Char} {token : JsonToken}
    (h : number? seen = some token) : Lexer.Stands ⟨found, .number seen⟩ (token :: found) := by
  have hforeign : ∀ c, c = ',' ∨ c = ']' ∨ c = '\x7d' → ¬ isNumberChar c = true := by
    rintro c (rfl | rfl | rfl) <;> decide
  refine ⟨fun c hc => ?_, ?_⟩
  · rw [Lexer.step]
    dsimp only
    rw [if_neg (hforeign c hc), h]
    rfl
  · rw [Lexer.finish]
    dsimp only
    rw [h]
    rfl

/-- The digits after the first are gathered. -/
theorem lex_numberChars (found : List JsonToken) : ∀ {cs : List Char} (seen : List Char),
    (∀ c ∈ cs, isNumberChar c = true) →
      cs.foldlM Lexer.step ⟨found, .number seen⟩ = some ⟨found, .number (cs.reverse ++ seen)⟩
  | [], _, _ => rfl
  | c :: cs, seen, h => by
    have hstep : Lexer.step ⟨found, .number seen⟩ c = some ⟨found, .number (c :: seen)⟩ :=
      if_pos (h c (.head _))
    rw [foldlM_cons_of_eq_some hstep, lex_numberChars found _ fun d hd => h d (.tail _ hd),
      List.reverse_cons, List.append_assoc]
    rfl

theorem Lexer.start_number (found : List JsonToken) {c : Char} (hc : c = '-' ∨ c.isDigit = true) :
    Lexer.start found c = some ⟨found, .number [c]⟩ := by
  rcases hc with rfl | hc
  · rfl
  · -- no mark and no blank is a digit
    rw [Lexer.start.eq_def]
    split
    all_goals first | cases hc | skip
    rw [if_neg, if_pos (.inr hc)]
    rintro (rfl | rfl | rfl | rfl) <;> cases hc

/-- A number that is read back is found as one word. -/
theorem lex_renderNumber (found : List JsonToken) {n : JsonNumber} (h : n.ReadsBack) :
    ∃ lexer, (renderNumber n).foldlM Lexer.step ⟨found, .between⟩ = some lexer ∧
      lexer.Stands (.scalar (.number n) :: found) := by
  obtain ⟨⟨c, rest, htext, hc⟩, hall⟩ := JsonNumber.chars_of_parse? h
  have htoken : number? (rest.reverse ++ [c]) = some (.scalar (.number n)) := by
    rw [number?, ← List.reverse_cons, List.reverse_reverse, ← htext, h]
    rfl
  rw [htext] at hall ⊢
  have hfirst : Lexer.step ⟨found, .between⟩ c = some ⟨found, .number [c]⟩ :=
    Lexer.start_number found hc
  rw [foldlM_cons_of_eq_some hfirst, lex_numberChars found _ fun d hd => hall d (.tail _ hd)]
  exact ⟨_, rfl, Lexer.stands_number found htoken⟩

/-! ## Documents -/

/-- Between two items stands a comma, and nothing before the first. -/
theorem lex_separator {found : List JsonToken} {lexer : Lexer} {first : Bool}
    (hstands : lexer.Stands found) (hfirst : first = true → lexer = ⟨found, .between⟩) :
    (if first then [] else [','] : List Char).foldlM Lexer.step lexer =
      some ⟨(if first then [] else [.comma] : List JsonToken).reverse ++ found, .between⟩ := by
  cases first with
  | true => rw [hfirst rfl]; rfl
  | false => exact foldlM_cons_of_eq_some (hstands.next ',' (.inl rfl))

mutual

/-- The words of a document are found in its text. -/
theorem lex_chars (found : List JsonToken) : ∀ v : Json, (∀ n ∈ v.numbers, n.ReadsBack) →
    ∃ lexer, v.chars.foldlM Lexer.step ⟨found, .between⟩ = some lexer ∧
      lexer.Stands (v.tokens.reverse ++ found)
  | .null, _ => ⟨_, rfl, Lexer.stands_word found rfl⟩
  | .bool true, _ => ⟨_, rfl, Lexer.stands_word found rfl⟩
  | .bool false, _ => ⟨_, rfl, Lexer.stands_word found rfl⟩
  | .number n, h => lex_renderNumber found (h n (by simp [numbers]))
  | .string s, _ => ⟨_, lex_renderString found s, Lexer.stands_between _⟩
  | .array items, h => by
    have hitems := lex_itemChars true items (Lexer.stands_between (.openArray :: found))
      (fun _ => rfl) (by simpa only [numbers] using h)
    refine ⟨_, (foldlM_cons_of_eq_some rfl).trans hitems, ?_⟩
    rw [tokens, List.reverse_cons, List.append_assoc]
    exact Lexer.stands_between _
  | .object fields, h => by
    have hfields := lex_fieldChars true fields (Lexer.stands_between (.openObject :: found))
      (fun _ => rfl) (by simpa only [numbers] using h)
    refine ⟨_, (foldlM_cons_of_eq_some rfl).trans hfields, ?_⟩
    rw [tokens, List.reverse_cons, List.append_assoc]
    exact Lexer.stands_between _

/-- The words of an array's items are found up to its closing bracket. -/
theorem lex_itemChars {found : List JsonToken} {lexer : Lexer} (first : Bool) :
    ∀ items : List Json, lexer.Stands found → (first = true → lexer = ⟨found, .between⟩) →
      (∀ n ∈ itemNumbers items, n.ReadsBack) →
      (itemChars first items).foldlM Lexer.step lexer =
        some ⟨(itemTokens first items).reverse ++ found, .between⟩
  | [], hstands, _, _ => foldlM_cons_of_eq_some (hstands.next ']' (.inr (.inl rfl)))
  | v :: rest, hstands, hfirst, h => by
    rw [itemNumbers] at h
    obtain ⟨hv, hrest⟩ := List.forall_mem_append.1 h
    -- the last word of the item may be complete only at what follows it
    obtain ⟨after, hchars, hafter⟩ := lex_chars _ v hv
    rw [itemChars, List.append_assoc, foldlM_append_of_eq_some (lex_separator hstands hfirst),
      foldlM_append_of_eq_some hchars,
      lex_itemChars false rest hafter (absurd · Bool.false_ne_true) hrest, itemTokens]
    simp only [List.reverse_append, List.append_assoc]

/-- The words of an object's fields are found up to its closing brace. -/
theorem lex_fieldChars {found : List JsonToken} {lexer : Lexer} (first : Bool) :
    ∀ fields : List (String × Json), lexer.Stands found →
      (first = true → lexer = ⟨found, .between⟩) →
      (∀ n ∈ fieldNumbers fields, n.ReadsBack) →
      (fieldChars first fields).foldlM Lexer.step lexer =
        some ⟨(fieldTokens first fields).reverse ++ found, .between⟩
  | [], hstands, _, _ => foldlM_cons_of_eq_some (hstands.next '\x7d' (.inr (.inr rfl)))
  | (k, v) :: rest, hstands, hfirst, h => by
    rw [fieldNumbers] at h
    obtain ⟨hv, hrest⟩ := List.forall_mem_append.1 h
    -- the key has an end of its own, and the colon is a word of its own
    obtain ⟨after, hchars, hafter⟩ := lex_chars (.colon :: .string k :: _) v hv
    rw [fieldChars, List.append_assoc, List.append_assoc,
      foldlM_append_of_eq_some (lex_separator hstands hfirst),
      foldlM_append_of_eq_some (lex_renderString _ k), List.cons_append,
      foldlM_cons_of_eq_some (t := ⟨.colon :: .string k :: _, .between⟩) rfl,
      foldlM_append_of_eq_some hchars,
      lex_fieldChars false rest hafter (absurd · Bool.false_ne_true) hrest, fieldTokens]
    simp only [List.reverse_append, List.reverse_cons, List.append_assoc, List.cons_append,
      List.nil_append]

end

/-- The lexer finds the words of a document in its text, and no others. -/
theorem tokens?_chars {v : Json} (h : ∀ n ∈ v.numbers, n.ReadsBack) :
    tokens? v.chars = some v.tokens := by
  obtain ⟨lexer, hchars, hstands⟩ := lex_chars [] v h
  rw [tokens?, hchars, Option.bind_some, hstands.finish, List.append_nil, List.reverse_reverse]

end TraceWatch.Json
