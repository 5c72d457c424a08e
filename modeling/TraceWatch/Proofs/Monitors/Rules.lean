import TraceWatch.Service.Request

/-!
# What the rules accept

A rule is a check that names the first thing wrong. Here each is read as what it accepts, and so
are the checks of whole requests, which apply one rule after the other.
-/

namespace TraceWatch

/-! ## Single rules -/

namespace Rules

theorem checkDisplayName_eq_ok {displayName : String} :
    checkDisplayName displayName = .ok () ↔ Text.isBlank displayName = false := by
  unfold checkDisplayName
  cases Text.isBlank displayName with
  | true => exact ⟨nofun, nofun⟩
  | false => exact ⟨fun _ => rfl, fun _ => rfl⟩

theorem checkInterval_eq_ok {minutes : Int} :
    checkInterval minutes = .ok () ↔ minInterval ≤ minutes := by
  unfold checkInterval
  split
  · next hshort => exact ⟨nofun, fun hlong => absurd hshort (Int.not_lt.2 hlong)⟩
  · next hlong => exact ⟨fun _ => Int.not_lt.1 hlong, fun _ => rfl⟩

/-- Identifiers pass if none is blank, none is there twice and none has been seen before. -/
theorem checkIdentifiers_eq_ok : ∀ {seen identifiers : List String},
    checkIdentifiers seen identifiers = .ok () ↔
      (∀ i ∈ identifiers, Text.isBlank i = false) ∧ identifiers.Nodup ∧ ∀ i ∈ identifiers, i ∉ seen
  | seen, [] => ⟨fun _ => ⟨List.forall_mem_nil _, List.nodup_nil, List.forall_mem_nil _⟩,
      fun _ => rfl⟩
  | seen, identifier :: rest => by
    rw [checkIdentifiers, List.forall_mem_cons, List.nodup_cons, List.forall_mem_cons]
    cases hblank : Text.isBlank identifier with
    | true => exact ⟨nofun, fun h => absurd h.1.1 nofun⟩
    | false =>
      rw [if_neg nofun]
      by_cases hseen : identifier ∈ seen
      · rw [if_pos (List.contains_iff_mem.2 hseen)]
        exact ⟨nofun, fun h => absurd hseen h.2.2.1⟩
      · rw [if_neg fun h => hseen (List.contains_iff_mem.1 h), checkIdentifiers_eq_ok]
        -- what comes later must differ from this identifier and from those seen before it
        simp only [List.mem_cons, not_or]
        refine ⟨fun ⟨hrest, hnodup, hnew⟩ => ?_, fun ⟨⟨_, hrest⟩, ⟨hother, hnodup⟩, _, hnew⟩ => ?_⟩
        · exact ⟨⟨trivial, hrest⟩, ⟨fun hmem => (hnew _ hmem).1 rfl, hnodup⟩, hseen,
            fun i hi => (hnew i hi).2⟩
        · exact ⟨hrest, hnodup, fun i hi => ⟨fun heq => hother (heq ▸ hi), hnew i hi⟩⟩

/-- Evaluators pass if there are some and no identifier is blank or there twice. -/
theorem checkEvaluators_eq_ok {evaluators : List Evaluator} :
    checkEvaluators evaluators = .ok () ↔ evaluators ≠ [] ∧
      (∀ e ∈ evaluators, Text.isBlank e.identifier = false) ∧
      (evaluators.map Evaluator.identifier).Nodup := by
  unfold checkEvaluators
  cases evaluators with
  | nil => exact ⟨nofun, fun h => absurd rfl h.1⟩
  | cons first rest =>
    rw [List.isEmpty_cons, if_neg nofun, checkIdentifiers_eq_ok, List.forall_mem_map]
    exact ⟨fun ⟨hblank, hnodup, _⟩ => ⟨nofun, hblank, hnodup⟩,
      fun ⟨_, hblank, hnodup⟩ => ⟨hblank, hnodup, fun _ _ => List.not_mem_nil⟩⟩

/-- A window passes if it is not empty and has elapsed. -/
theorem checkWindow_eq_ok {window : Window} {now : Timestamp} :
    checkWindow window now = .ok () ↔ window.start < window.stop ∧ window.stop ≤ now := by
  have hle : ¬ now < window.stop ↔ window.stop ≤ now := by
    simp only [Timestamp.lt_def, Timestamp.le_def]
    omega
  unfold checkWindow
  rw [← hle]
  split
  · next hempty => exact ⟨nofun, fun h => absurd h.1 hempty⟩
  · next hsome =>
    split
    · next hearly => exact ⟨nofun, fun h => absurd hearly h.2⟩
    · next helapsed => exact ⟨fun _ => ⟨Decidable.not_not.1 hsome, helapsed⟩, fun _ => rfl⟩

/-- A check followed by others passes if each of them does. -/
theorem bind_eq_ok {x : Except Violation Unit} {f : Unit → Except Violation Unit} :
    (x >>= f) = .ok () ↔ x = .ok () ∧ f () = .ok () := by
  cases x with
  | error violation => exact ⟨nofun, nofun⟩
  | ok => exact ⟨fun h => ⟨rfl, h⟩, fun h => h.2⟩

end Rules

/-! ## Requests -/

/-- A request for a monitor is accepted if each of its fields is, and those of its kind. -/
theorem NewMonitor.check_eq_ok {r : NewMonitor} {now : Timestamp} :
    r.check now = .ok () ↔ Rules.checkName r.name = .ok () ∧
      Rules.checkDisplayName r.displayName = .ok () ∧
      Rules.checkEvaluators r.evaluators = .ok () ∧
      (∀ rate, r.samplingRate = some rate → Rules.checkSamplingRate rate = .ok ()) ∧
      r.checkKind now = .ok () := by
  unfold check
  cases r.samplingRate with
  | none => simp only [Rules.bind_eq_ok, reduceCtorEq, false_implies, implies_true, true_and]
  | some rate => simp only [Rules.bind_eq_ok, Option.some.injEq, forall_eq']

theorem Monitor.isFuture_iff {m : Monitor} : m.isFuture = true ↔ m.kind = .future :=
  decide_eq_true_iff

namespace Edit

/-- An interval is accepted for a future monitor only. -/
theorem checkInterval_eq_ok {m : Monitor} {minutes : Int} :
    checkInterval m minutes = .ok () ↔ m.kind = .future ∧ minInterval ≤ minutes := by
  unfold checkInterval
  rw [← Monitor.isFuture_iff, ← Rules.checkInterval_eq_ok]
  cases m.isFuture with
  | true => exact ⟨fun h => ⟨rfl, h⟩, fun h => h.2⟩
  | false => exact ⟨nofun, fun h => absurd h.1 nofun⟩

/-- An edit is accepted if each field that it sets is. -/
theorem check_eq_ok {edit : Edit} {m : Monitor} :
    edit.check m = .ok () ↔ checkField Rules.checkDisplayName edit.displayName = .ok () ∧
      checkField Rules.checkEvaluators edit.evaluators = .ok () ∧
      checkField Rules.checkSamplingRate edit.samplingRate = .ok () ∧
      checkField (checkInterval m) edit.interval = .ok () := by
  simp only [check, Rules.bind_eq_ok]

/-- A field passes its rule with what an edit leaves of it, if what was there before does. -/
theorem check_getD {α : Type} {rule : α → Except Violation Unit} {field : Option α} {old : α}
    (h : checkField rule field = .ok ()) (hold : rule old = .ok ()) :
    rule (field.getD old) = .ok () := by
  cases field with
  | none => exact hold
  | some new => exact h

end Edit

end TraceWatch
