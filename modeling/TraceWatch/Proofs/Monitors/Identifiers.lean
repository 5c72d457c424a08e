import Mathlib.Data.List.DropRight
import TraceWatch.Proofs.Monitors.Requests

/-!
# The identifiers of evaluators, position by position

The rule for evaluators goes through their identifiers once and has two things to look for: a blank
identifier, and one that has been there before. It accepts a list exactly if it is not empty and
neither is found anywhere. Otherwise it tells what is wrong at the first position where anything is
wrong, whichever of the two it is: `Rules.checkEvaluators_names_first`.
-/

namespace TraceWatch

/-! ## Blank texts -/

/-- A text is blank if nothing is left of it without the blanks at its ends. -/
theorem Text.isBlank_iff_trim {s : String} : isBlank s = true ↔ trim s = "" := by
  have htrim : trim s = "" ↔ (s.toList.dropWhile isBlankChar).rdropWhile isBlankChar = [] :=
    String.ofList_eq_empty_iff
  rw [htrim, List.rdropWhile_eq_nil_iff, ← List.dropWhile_eq_nil_iff, List.dropWhile_idempotent,
    List.dropWhile_eq_nil_iff, isBlank, List.all_eq_true]

theorem Text.isBlank_eq_false_iff {s : String} : isBlank s = false ↔ trim s ≠ "" := by
  rw [← Bool.not_eq_true, isBlank_iff_trim]

namespace Rules

variable {identifiers : List String} {n : Nat} {i : String} {v : Violation}

/-! ## What is wrong at a position -/

/-- What is wrong with the identifier at a position: it is blank, or it stands before it too. -/
inductive FaultAt (identifiers : List String) (n : Nat) : Violation → Prop
  | blank {i : String} : identifiers[n]? = some i → Text.trim i = "" →
    FaultAt identifiers n .blankIdentifier
  | twice {i : String} : identifiers[n]? = some i → i ∈ identifiers.take n →
    FaultAt identifiers n (.duplicateEvaluator i)

/-- This is wrong at a position, and nothing is wrong before it. -/
def IsFirstFault (identifiers : List String) (n : Nat) (v : Violation) : Prop :=
  FaultAt identifiers n v ∧ ∀ m < n, ∀ w, ¬ FaultAt identifiers m w

theorem areDistinct_concat_iff {before : List String} :
    AreDistinct (before ++ [i]) ↔ AreDistinct before ∧ Text.isBlank i = false ∧ i ∉ before := by
  refine ⟨fun ⟨hblank, hnodup⟩ => ?_, fun ⟨h, hblank, hnew⟩ => areDistinct_concat h hblank hnew⟩
  rw [List.forall_mem_append, List.forall_mem_singleton] at hblank
  rw [(List.perm_append_singleton i before).nodup_iff, List.nodup_cons] at hnodup
  exact ⟨⟨hblank.1, hnodup.2⟩, hblank.2, hnodup.1⟩

theorem not_faultAt_iff (hi : identifiers[n]? = some i) :
    (∀ w, ¬ FaultAt identifiers n w) ↔ Text.isBlank i = false ∧ i ∉ identifiers.take n := by
  rw [Text.isBlank_eq_false_iff]
  refine ⟨fun h => ⟨fun hblank => h _ (.blank hi hblank), fun hmem => h _ (.twice hi hmem)⟩,
    fun ⟨hblank, hnew⟩ w hfault => ?_⟩
  cases hfault with
  | blank hj hj' => exact hblank (Option.some.inj (hi.symm.trans hj) ▸ hj')
  | twice hj hj' => exact hnew (Option.some.inj (hi.symm.trans hj) ▸ hj')

/-- The identifiers before a position can be told apart exactly if nothing is wrong there. -/
theorem areDistinct_take_iff : ∀ {n : Nat},
    AreDistinct (identifiers.take n) ↔ ∀ m < n, ∀ w, ¬ FaultAt identifiers m w
  | 0 => ⟨fun _ m hm => absurd hm (Nat.not_lt_zero m),
      fun _ => ⟨List.forall_mem_nil _, List.nodup_nil⟩⟩
  | n + 1 => by
    have ih : AreDistinct (identifiers.take n) ↔ ∀ m < n, ∀ w, ¬ FaultAt identifiers m w :=
      areDistinct_take_iff
    rw [Nat.forall_lt_succ_right, ← ih, List.take_add_one]
    cases hi : identifiers[n]? with
    | none =>
      -- the list ends before this position
      have hnone : ∀ w, ¬ FaultAt identifiers n w := by
        rintro w (⟨hj, -⟩ | ⟨hj, -⟩) <;> exact absurd (hi.symm.trans hj) nofun
      rw [Option.toList_none, List.append_nil]
      exact ⟨fun h => ⟨h, hnone⟩, And.left⟩
    | some i => rw [Option.toList_some, areDistinct_concat_iff, not_faultAt_iff hi]

/-! ## What the rule names -/

/-- What is wrong after identifiers that can be told apart is the first thing that is wrong. -/
theorem isFirstFault_append {before after : List String} (hbefore : AreDistinct before)
    (hfault : FaultAt (before ++ i :: after) before.length v) :
    IsFirstFault (before ++ i :: after) before.length v := by
  refine ⟨hfault, areDistinct_take_iff.1 ?_⟩
  rwa [List.take_left]

/-- What is wrong with identifiers is what is wrong at the first position where anything is. -/
theorem breaksIdentifiers_iff (hsome : identifiers ≠ []) :
    BreaksIdentifiers identifiers v ↔ ∃ n, IsFirstFault identifiers n v := by
  constructor
  · intro h
    cases h with
    | none hnone => exact absurd hnone hsome
    | @blank before after i heq hbefore hblank =>
      subst heq
      have hi : (before ++ i :: after)[before.length]? = some i := by simp
      exact ⟨_, isFirstFault_append hbefore (.blank hi (Text.isBlank_iff_trim.1 hblank))⟩
    | @twice before after i heq hbefore _ hmem =>
      subst heq
      have hi : (before ++ i :: after)[before.length]? = some i := by simp
      exact ⟨_, isFirstFault_append hbefore (.twice hi (by rwa [List.take_left]))⟩
  · rintro ⟨n, hfault, hfirst⟩
    have hbefore : AreDistinct (identifiers.take n) := areDistinct_take_iff.2 hfirst
    have hsplit {i : String} (hi : identifiers[n]? = some i) :
        identifiers = identifiers.take n ++ i :: identifiers.drop (n + 1) := by
      obtain ⟨hn, rfl⟩ := List.getElem?_eq_some_iff.1 hi
      rw [← List.drop_eq_getElem_cons hn, List.take_append_drop]
    cases hfault with
    | blank hi hblank => exact .blank (hsplit hi) hbefore (Text.isBlank_iff_trim.2 hblank)
    -- an identifier that has been there before is not blank, as none before the first fault is
    | twice hi hmem => exact .twice (hsplit hi) hbefore (hbefore.1 _ hmem) hmem

theorem checkEvaluators_eq_error_iff {evaluators : List Evaluator} :
    checkEvaluators evaluators = .error v ↔
      BreaksIdentifiers (evaluators.map Evaluator.identifier) v :=
  ⟨breaksIdentifiers_of_checkEvaluators, BreaksIdentifiers.check⟩

/-- A list of evaluators is accepted exactly if it is not empty, no identifier is blank and no two
are the same. What is told of any other list that is not empty is what is wrong at the first
position where anything is. -/
theorem checkEvaluators_names_first (evaluators : List Evaluator) :
    (checkEvaluators evaluators = .ok () ↔ evaluators ≠ [] ∧
      (∀ e ∈ evaluators, Text.trim e.identifier ≠ "") ∧
      (evaluators.map Evaluator.identifier).Nodup) ∧
    (evaluators = [] → checkEvaluators evaluators = .error .noEvaluators) ∧
    (evaluators ≠ [] → ∀ v, checkEvaluators evaluators = .error v ↔
      ∃ n, IsFirstFault (evaluators.map Evaluator.identifier) n v) := by
  refine ⟨?_, fun hnone => by rw [hnone]; rfl, fun hsome v => ?_⟩
  · rw [checkEvaluators_eq_ok]
    simp only [Text.isBlank_eq_false_iff]
  · have hsome' : evaluators.map Evaluator.identifier ≠ [] := mt List.map_eq_nil_iff.1 hsome
    rw [checkEvaluators_eq_error_iff, breaksIdentifiers_iff hsome']

/-- Of evaluators of which the third repeats the first, and the last is blank. -/
theorem checkEvaluators_names_first_twice :
    let evaluators := ["tone", "latency", "tone", "\u2003"].map (Evaluator.plain · "")
    evaluators ≠ [] ∧ (∃ n, IsFirstFault (evaluators.map Evaluator.identifier) n
        (.duplicateEvaluator "tone")) ∧
      (Violation.duplicateEvaluator "tone").message = "duplicate evaluator 'tone'" ∧
      FaultAt (evaluators.map Evaluator.identifier) 3 .blankIdentifier := by
  intro evaluators
  have hsome : evaluators ≠ [] := nofun
  have hcheck : checkEvaluators evaluators = .error (.duplicateEvaluator "tone") := by
    decide +kernel
  exact ⟨hsome, ((checkEvaluators_names_first evaluators).2.2 hsome _).1 hcheck, by decide +kernel,
    .blank rfl (by decide +kernel)⟩

end Rules

end TraceWatch
