import TraceWatch.Text.Parts

/-!
# Texts cut at a character

A text is cut at the first place of a character just where the character does not stand before the
cut, and at the last place just where it does not stand after it. So both cuts are determined.
-/

namespace TraceWatch.Text

section

variable {mark : Char} {before after : List Char}

/-! ## The first place -/

theorem atFirst?_append : ∀ {before : List Char}, mark ∉ before →
    atFirst? mark (before ++ mark :: after) = some (before, after)
  | [], _ => by rw [List.nil_append, atFirst?, if_pos rfl]
  | c :: before, h => by
    obtain ⟨hc, hbefore⟩ := not_or.1 (mt List.mem_cons.2 h)
    rw [List.cons_append, atFirst?, if_neg (Ne.symm hc), atFirst?_append hbefore, Option.map_some]

theorem of_atFirst? : ∀ {text before : List Char}, atFirst? mark text = some (before, after) →
    mark ∉ before ∧ text = before ++ mark :: after
  | c :: text, before, h => by
    rw [atFirst?] at h
    split at h
    · next hc =>
      cases h
      exact ⟨List.not_mem_nil, by rw [hc, List.nil_append]⟩
    · next hc =>
      obtain ⟨⟨front, back⟩, hcut, heq⟩ := Option.map_eq_some_iff.1 h
      cases heq
      obtain ⟨hfront, htext⟩ := of_atFirst? hcut
      refine ⟨fun hmem => ?_, by rw [htext, List.cons_append]⟩
      exact (List.mem_cons.1 hmem).elim (fun hmark => hc hmark.symm) hfront

/-- What stands before and after the first place of a character is determined by the text. -/
theorem append_cons_inj {before' after' : List Char} (hbefore : mark ∉ before)
    (hbefore' : mark ∉ before') (h : before ++ mark :: after = before' ++ mark :: after') :
    before = before' ∧ after = after' := by
  have hcut : atFirst? mark (before ++ mark :: after) = some (before, after) :=
    atFirst?_append hbefore
  rw [h, atFirst?_append hbefore'] at hcut
  cases hcut
  exact ⟨rfl, rfl⟩

/-! ## The last place -/

theorem atLast?_eq_none : ∀ {text : List Char}, atLast? mark text = none ↔ mark ∉ text
  | [] => by simp [atLast?]
  | c :: text => by
    have ih : atLast? mark text = none ↔ mark ∉ text := atLast?_eq_none
    rw [atLast?, List.mem_cons, not_or, ← ih, eq_comm (a := mark)]
    cases atLast? mark text with
    | some _ => simp
    | none => by_cases hc : c = mark <;> simp [hc]

theorem atLast?_append (hafter : mark ∉ after) : ∀ before : List Char,
    atLast? mark (before ++ mark :: after) = some (before, after)
  | [] => by
    rw [List.nil_append, atLast?, atLast?_eq_none.2 hafter]
    exact if_pos rfl
  | c :: before => by rw [List.cons_append, atLast?, atLast?_append hafter before]

theorem of_atLast? : ∀ {text before after : List Char}, atLast? mark text = some (before, after) →
    mark ∉ after ∧ text = before ++ mark :: after
  | c :: text, before, after, h => by
    rw [atLast?] at h
    cases hrest : atLast? mark text with
    | some cut =>
      rw [hrest] at h
      cases h
      obtain ⟨hafter, htext⟩ := of_atLast? hrest
      exact ⟨hafter, by rw [htext, List.cons_append]⟩
    | none =>
      rw [hrest] at h
      dsimp only at h
      split at h
      · next hc =>
        cases h
        exact ⟨atLast?_eq_none.1 hrest, by rw [hc, List.nil_append]⟩
      · cases h

theorem atLast?_suffix {text : List Char} (h : atLast? mark text = some (before, after)) :
    after <:+ text := by
  rw [(of_atLast? h).2]
  exact (List.suffix_cons mark after).trans (List.suffix_append before _)

end

end TraceWatch.Text
