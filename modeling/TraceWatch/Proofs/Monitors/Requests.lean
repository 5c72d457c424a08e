import TraceWatch.Proofs.Monitors.Rules

/-!
# The rules for a request, one by one

A request for a monitor has to keep rules that come in an order: five for its fields, and then those
of its kind. `NewMonitor.Breaks` says which of them it breaks and what is wrong then, each rule by
itself, and `NewMonitor.FirstBroken` which is the first. The check of a request names what is wrong
with the first rule that is broken (`NewMonitor.check_eq_error`), and passes if none is
(`NewMonitor.check_eq_ok_iff_isValid`).
-/

namespace TraceWatch

namespace Rules

/-- The identifiers are those of evaluators that can be told apart: none is blank, none is there
twice. -/
def AreDistinct (identifiers : List String) : Prop :=
  (∀ i ∈ identifiers, Text.isBlank i = false) ∧ identifiers.Nodup

/-- What is wrong with the identifiers of evaluators: there is none, or it is the first that is
blank or has been there before. -/
inductive BreaksIdentifiers (identifiers : List String) : Violation → Prop
  | none : identifiers = [] → BreaksIdentifiers identifiers .noEvaluators
  | blank {before after : List String} {i : String} : identifiers = before ++ i :: after →
    AreDistinct before → Text.isBlank i = true → BreaksIdentifiers identifiers .blankIdentifier
  | twice {before after : List String} {i : String} : identifiers = before ++ i :: after →
    AreDistinct before → Text.isBlank i = false → i ∈ before →
      BreaksIdentifiers identifiers (.duplicateEvaluator i)

theorem areDistinct_concat {before : List String} {i : String} (h : AreDistinct before)
    (hblank : Text.isBlank i = false) (hnew : i ∉ before) : AreDistinct (before ++ [i]) := by
  refine ⟨List.forall_mem_append.2 ⟨h.1, List.forall_mem_singleton.2 hblank⟩, ?_⟩
  rw [List.nodup_append]
  refine ⟨h.2, List.pairwise_singleton _ i, fun a ha b hb => ?_⟩
  obtain rfl := List.mem_singleton.1 hb
  exact fun heq => hnew (heq ▸ ha)

theorem checkIdentifiers_cons (seen : List String) (i : String) (rest : List String) :
    checkIdentifiers seen (i :: rest) = if Text.isBlank i then .error .blankIdentifier
      else if seen.contains i then .error (.duplicateEvaluator i)
      else checkIdentifiers (i :: seen) rest := rfl

/-- A check that goes on after distinct identifiers names the first that is not. -/
theorem breaksIdentifiers_of_check {v : Violation} :
    ∀ {rest before : List String}, AreDistinct before →
      checkIdentifiers before.reverse rest = .error v → BreaksIdentifiers (before ++ rest) v
  | [], _, _, h => by cases h
  | i :: rest, before, hbefore, h => by
    rw [checkIdentifiers_cons] at h
    cases hblank : Text.isBlank i with
    | true =>
      rw [if_pos hblank] at h
      cases h
      exact .blank rfl hbefore hblank
    | false =>
      rw [if_neg (by rw [hblank]; exact nofun)] at h
      by_cases hseen : i ∈ before
      · rw [if_pos (List.contains_iff_mem.2 (List.mem_reverse.2 hseen))] at h
        cases h
        exact .twice rfl hbefore hblank hseen
      · rw [if_neg fun hc => hseen (List.mem_reverse.1 (List.contains_iff_mem.1 hc)),
          show i :: before.reverse = (before ++ [i]).reverse by simp] at h
        have hrest := breaksIdentifiers_of_check (areDistinct_concat hbefore hblank hseen) h
        rwa [List.append_assoc, List.singleton_append] at hrest

/-- A check that fails names what is wrong with the identifiers. -/
theorem breaksIdentifiers_of_checkEvaluators {evaluators : List Evaluator} {v : Violation}
    (h : checkEvaluators evaluators = .error v) :
    BreaksIdentifiers (evaluators.map Evaluator.identifier) v := by
  rw [checkEvaluators] at h
  split at h
  · next hempty =>
    cases h
    exact .none (congrArg _ (List.isEmpty_iff.1 hempty))
  · exact breaksIdentifiers_of_check ⟨List.forall_mem_nil _, List.nodup_nil⟩ h

/-- A check goes through distinct identifiers and comes to the rest. -/
theorem checkIdentifiers_append {rest : List String} : ∀ {before seen : List String},
    AreDistinct before → (∀ i ∈ before, i ∉ seen) →
      checkIdentifiers seen (before ++ rest) = checkIdentifiers (before.reverse ++ seen) rest
  | [], _, _, _ => rfl
  | i :: before, seen, ⟨hblank, hnodup⟩, hnew => by
    obtain ⟨hi, hblank⟩ := List.forall_mem_cons.1 hblank
    obtain ⟨hother, hnodup⟩ := List.nodup_cons.1 hnodup
    obtain ⟨hunseen, hnew⟩ := List.forall_mem_cons.1 hnew
    have hnew' : ∀ j ∈ before, j ∉ i :: seen := by
      intro j hj hmem
      rcases List.mem_cons.1 hmem with rfl | hmem
      · exact hother hj
      · exact hnew j hj hmem
    rw [List.cons_append, checkIdentifiers_cons, if_neg (by rw [hi]; exact nofun),
      if_neg fun hc => hunseen (List.contains_iff_mem.1 hc),
      checkIdentifiers_append ⟨hblank, hnodup⟩ hnew', List.reverse_cons, List.append_assoc,
      List.singleton_append]

/-- What is wrong with the identifiers is what a check names. -/
theorem BreaksIdentifiers.check {evaluators : List Evaluator} {v : Violation}
    (h : BreaksIdentifiers (evaluators.map Evaluator.identifier) v) :
    checkEvaluators evaluators = .error v := by
  have hsome {before after : List String} {i : String}
      (heq : evaluators.map Evaluator.identifier = before ++ i :: after) :
      ¬ evaluators.isEmpty = true := by
    rintro hempty
    rw [List.isEmpty_iff.1 hempty] at heq
    simp at heq
  have hunseen (before : List String) : ∀ i ∈ before, i ∉ ([] : List String) :=
    fun _ _ => List.not_mem_nil
  cases h with
  | none hempty =>
    rw [checkEvaluators, List.map_eq_nil_iff.1 hempty]
    rfl
  | blank heq hbefore hblank =>
    rw [checkEvaluators, if_neg (hsome heq), heq, checkIdentifiers_append hbefore (hunseen _),
      checkIdentifiers_cons, if_pos hblank]
  | @twice before _ i heq hbefore hblank hmem =>
    have hseen : (before.reverse ++ []).contains i = true :=
      List.contains_iff_mem.2 (List.mem_append_left _ (List.mem_reverse.2 hmem))
    rw [checkEvaluators, if_neg (hsome heq), heq, checkIdentifiers_append hbefore (hunseen _),
      checkIdentifiers_cons, if_neg (by rw [hblank]; exact nofun), if_pos hseen]

/-- A check that is followed by others names what is wrong, or it passes and they name it. -/
theorem of_bind_eq_error {v : Violation} {x : Except Violation Unit}
    {f : Unit → Except Violation Unit} (h : (x >>= f) = .error v) :
    x = .error v ∨ x = .ok () ∧ f () = .error v := by
  cases x with
  | error e => exact .inl h
  | ok => exact .inr ⟨rfl, h⟩

end Rules

namespace NewMonitor

/-- The request breaks the rule with a number, and this is what is wrong. -/
inductive Breaks (r : NewMonitor) (now : Timestamp) : Nat → Violation → Prop
  | name : Rules.isName r.name = false → Breaks r now 0 (.invalidName r.name)
  | displayName : Text.isBlank r.displayName = true → Breaks r now 1 .blankDisplayName
  | evaluators {v : Violation} :
    Rules.BreaksIdentifiers (r.evaluators.map Evaluator.identifier) v → Breaks r now 2 v
  | samplingRate {rate : Binary64} : r.samplingRate = some rate →
    ¬ (rate.isPositive = true ∧ rate.isAtMostOne = true) →
      Breaks r now 3 (.samplingRateOutOfRange rate)
  | windowOfFuture : r.kind = .future → r.traceStart ≠ none ∨ r.traceEnd ≠ none →
    Breaks r now 4 .windowOfFuture
  | interval {minutes : Int} : r.kind = .future → r.interval = some minutes → minutes < 5 →
    Breaks r now 5 (.intervalTooShort minutes)
  | intervalOfPast : r.kind = .past → r.interval ≠ none → Breaks r now 4 .intervalOfPast
  | windowMissing : r.kind = .past → r.traceStart = none ∨ r.traceEnd = none →
    Breaks r now 5 .windowMissing
  | emptyWindow {start stop : Timestamp} : r.kind = .past → r.traceStart = some start →
    r.traceEnd = some stop → ¬ start < stop → Breaks r now 6 .emptyWindow
  | windowNotElapsed {start stop : Timestamp} : r.kind = .past → r.traceStart = some start →
    r.traceEnd = some stop → ¬ stop ≤ now → Breaks r now 7 .windowNotElapsed

/-- The request keeps the rules before the one with a number. -/
def KeepsBefore (r : NewMonitor) (now : Timestamp) (n : Nat) : Prop :=
  ∀ m < n, ∀ v, ¬ r.Breaks now m v

/-- The request breaks a rule and none before it, and this is what is wrong. -/
def FirstBroken (r : NewMonitor) (now : Timestamp) (v : Violation) : Prop :=
  ∃ n, r.Breaks now n v ∧ r.KeepsBefore now n

/-- The request breaks no rule. -/
def IsValid (r : NewMonitor) (now : Timestamp) : Prop := ∀ n v, ¬ r.Breaks now n v

variable {r : NewMonitor} {now : Timestamp} {v v' : Violation} {n : Nat}

theorem keepsBefore_zero : r.KeepsBefore now 0 := fun _ hm => absurd hm (Nat.not_lt_zero _)

theorem KeepsBefore.succ (h : r.KeepsBefore now n) (hn : ∀ v, ¬ r.Breaks now n v) :
    r.KeepsBefore now (n + 1) := by
  intro m hm
  rcases Nat.lt_succ_iff_lt_or_eq.1 hm with hm | rfl
  · exact h m hm
  · exact hn

/-- A rule that is broken is broken in one way. -/
theorem Breaks.unique (h : r.Breaks now n v) (h' : r.Breaks now n v') : v = v' := by
  cases h with
  | name | displayName =>
    cases h'
    rfl
  | evaluators hbad =>
    cases h' with
    | evaluators hbad' => exact Except.error.inj (hbad.check.symm.trans hbad'.check)
  | samplingRate hrate =>
    cases h' with
    | samplingRate hrate' => rw [Option.some.inj (hrate.symm.trans hrate')]
  | interval hkind hinterval =>
    cases h' with
    | interval _ hinterval' => rw [Option.some.inj (hinterval.symm.trans hinterval')]
    | windowMissing hkind' => cases hkind.symm.trans hkind'
  | windowOfFuture hkind =>
    cases h' with
    | windowOfFuture => rfl
    | intervalOfPast hkind' => cases hkind.symm.trans hkind'
  | intervalOfPast hkind =>
    cases h' with
    | windowOfFuture hkind' => cases hkind.symm.trans hkind'
    | intervalOfPast => rfl
  | windowMissing hkind =>
    cases h' with
    | interval hkind' => cases hkind.symm.trans hkind'
    | windowMissing => rfl
  | emptyWindow | windowNotElapsed =>
    cases h'
    rfl

/-! ## What the check names -/

/-- If the rules before those of its kind are kept, the check of a future request names the first
that is broken. -/
theorem firstBroken_of_future (hkind : r.kind = .future) (hkeeps : r.KeepsBefore now 4)
    (h : r.checkKind now = .error v) : r.FirstBroken now v := by
  rw [checkKind, hkind] at h
  dsimp only at h
  split at h
  · next hwindow =>
    cases h
    rw [Bool.or_eq_true, Option.isSome_iff_ne_none, Option.isSome_iff_ne_none] at hwindow
    exact ⟨4, .windowOfFuture hkind hwindow, hkeeps⟩
  · next hnone =>
    rw [Bool.or_eq_true, Option.isSome_iff_ne_none, Option.isSome_iff_ne_none] at hnone
    have hkeeps : r.KeepsBefore now 5 := hkeeps.succ fun v hbreaks => by
      cases hbreaks with
      | windowOfFuture _ hwindow => exact hnone hwindow
      | intervalOfPast hkind' => cases hkind.symm.trans hkind'
    split at h
    · next minutes hinterval =>
      rw [Rules.checkInterval] at h
      split at h
      · next hshort =>
        cases h
        exact ⟨5, .interval hkind hinterval hshort, hkeeps⟩
      · cases h
    · cases h

/-- A past request whose window is there breaks the rules for it, if any, in their order. -/
theorem firstBroken_of_window {start stop : Timestamp} (hkind : r.kind = .past)
    (hstart : r.traceStart = some start) (hstop : r.traceEnd = some stop)
    (hkeeps : r.KeepsBefore now 5) (h : Rules.checkWindow ⟨start, stop⟩ now = .error v) :
    r.FirstBroken now v := by
  have hkeeps : r.KeepsBefore now 6 := hkeeps.succ fun v hbreaks => by
    cases hbreaks with
    | interval hkind' => cases hkind.symm.trans hkind'
    | windowMissing _ hmissing =>
      rw [hstart, hstop] at hmissing
      exact hmissing.elim nofun nofun
  rw [Rules.checkWindow] at h
  split at h
  · next hempty =>
    cases h
    exact ⟨6, .emptyWindow hkind hstart hstop hempty, hkeeps⟩
  · next hsome =>
    have hkeeps : r.KeepsBefore now 7 := hkeeps.succ fun v hbreaks => by
      cases hbreaks with
      | emptyWindow _ hstart' hstop' hempty =>
        cases hstart.symm.trans hstart'
        cases hstop.symm.trans hstop'
        exact hsome hempty
    split at h
    · next hearly =>
      cases h
      refine ⟨7, .windowNotElapsed hkind hstart hstop ?_, hkeeps⟩
      simp only [Timestamp.lt_def, Timestamp.le_def] at hearly ⊢
      omega
    · cases h

/-- If the rules before those of its kind are kept, the check of a past request names the first that
is broken. -/
theorem firstBroken_of_past (hkind : r.kind = .past) (hkeeps : r.KeepsBefore now 4)
    (h : r.checkKind now = .error v) : r.FirstBroken now v := by
  rw [checkKind, hkind] at h
  dsimp only at h
  split at h
  · next hinterval =>
    cases h
    exact ⟨4, .intervalOfPast hkind (Option.isSome_iff_ne_none.1 hinterval), hkeeps⟩
  · next hnone =>
    rw [Option.isSome_iff_ne_none] at hnone
    have hkeeps : r.KeepsBefore now 5 := hkeeps.succ fun v hbreaks => by
      cases hbreaks with
      | windowOfFuture hkind' => cases hkind.symm.trans hkind'
      | intervalOfPast _ hinterval => exact hnone hinterval
    split at h
    · next hstart hstop => exact firstBroken_of_window hkind hstart hstop hkeeps h
    · next hmissing =>
      cases h
      refine ⟨5, .windowMissing hkind ?_, hkeeps⟩
      cases hstart : r.traceStart with
      | none => exact .inl rfl
      | some start => exact .inr (Option.eq_none_iff_forall_ne_some.2 (hmissing start · hstart))

/-- If the rules before those of its kind are kept, the check of a request names the first that is
broken. -/
theorem firstBroken_of_checkKind (hkeeps : r.KeepsBefore now 4) (h : r.checkKind now = .error v) :
    r.FirstBroken now v := by
  cases hkind : r.kind with
  | future => exact firstBroken_of_future hkind hkeeps h
  | past => exact firstBroken_of_past hkind hkeeps h

/-- A check that fails names what is wrong with the first rule that is broken. -/
theorem firstBroken_of_check (h : r.check now = .error v) : r.FirstBroken now v := by
  unfold check at h
  rcases Rules.of_bind_eq_error h with h | ⟨hname, h⟩
  · rw [Rules.checkName] at h
    split at h
    · cases h
    · next hname =>
      cases h
      exact ⟨0, .name (by simpa using hname), keepsBefore_zero⟩
  have hkeeps : r.KeepsBefore now 1 := keepsBefore_zero.succ fun v hbreaks => by
    cases hbreaks with
    | name hbad =>
      rw [Rules.checkName, if_neg (by rw [hbad]; exact nofun)] at hname
      cases hname
  rcases Rules.of_bind_eq_error h with h | ⟨hdisplay, h⟩
  · rw [Rules.checkDisplayName] at h
    split at h
    · next hblank =>
      cases h
      exact ⟨1, .displayName hblank, hkeeps⟩
    · cases h
  have hkeeps : r.KeepsBefore now 2 := hkeeps.succ fun v hbreaks => by
    cases hbreaks with
    | displayName hblank => cases hblank.symm.trans (Rules.checkDisplayName_eq_ok.1 hdisplay)
  rcases Rules.of_bind_eq_error h with h | ⟨hevaluators, h⟩
  · exact ⟨2, .evaluators (Rules.breaksIdentifiers_of_checkEvaluators h), hkeeps⟩
  have hkeeps : r.KeepsBefore now 3 := hkeeps.succ fun v hbreaks => by
    cases hbreaks with
    | evaluators hbad => cases hbad.check.symm.trans hevaluators
  dsimp only at h
  cases hrate : r.samplingRate with
  | none =>
    rw [hrate] at h
    refine firstBroken_of_checkKind (hkeeps.succ fun v hbreaks => ?_) h
    cases hbreaks with
    | samplingRate hrate' => cases hrate.symm.trans hrate'
  | some rate =>
    rw [hrate] at h
    rcases Rules.of_bind_eq_error h with h | ⟨hpass, h⟩
    · rw [Rules.checkSamplingRate] at h
      split at h
      · cases h
      · next hbad =>
        cases h
        exact ⟨3, .samplingRate hrate fun hgood => hbad (Bool.and_eq_true_iff.2 hgood), hkeeps⟩
    · refine firstBroken_of_checkKind (hkeeps.succ fun v hbreaks => ?_) h
      cases hbreaks with
      | samplingRate hrate' hbad =>
        cases hrate.symm.trans hrate'
        rw [Rules.checkSamplingRate,
          if_neg fun hgood => hbad (Bool.and_eq_true_iff.1 hgood)] at hpass
        cases hpass

/-- A request that breaks a rule does not pass the check. -/
theorem Breaks.check_ne (h : r.Breaks now n v) : r.check now ≠ .ok () := by
  intro hcheck
  obtain ⟨hname, hdisplay, hevaluators, hrate, hkind⟩ := check_eq_ok.1 hcheck
  cases h with
  | name hbad =>
    rw [Rules.checkName, hbad] at hname
    cases hname
  | displayName hblank => cases hblank.symm.trans (Rules.checkDisplayName_eq_ok.1 hdisplay)
  | evaluators hbad => cases hbad.check.symm.trans hevaluators
  | samplingRate hset hbad =>
    have hpass := hrate _ hset
    rw [Rules.checkSamplingRate, if_neg fun hgood => hbad (Bool.and_eq_true_iff.1 hgood)] at hpass
    cases hpass
  | windowOfFuture hfuture hwindow =>
    rw [checkKind, hfuture] at hkind
    dsimp only at hkind
    rw [if_pos (by simpa [Option.isSome_iff_ne_none] using hwindow)] at hkind
    cases hkind
  | interval hfuture hset hshort =>
    rw [checkKind, hfuture, hset] at hkind
    dsimp only at hkind
    split at hkind
    · cases hkind
    · exact absurd (Rules.checkInterval_eq_ok.1 hkind) (Int.not_le.2 hshort)
  | intervalOfPast hpast hset =>
    rw [checkKind, hpast] at hkind
    dsimp only at hkind
    rw [if_pos (Option.isSome_iff_ne_none.2 hset)] at hkind
    cases hkind
  | windowMissing hpast hmissing =>
    rw [checkKind, hpast] at hkind
    dsimp only at hkind
    split at hkind
    · cases hkind
    · split at hkind
      · next hstart hstop =>
        rw [hstart, hstop] at hmissing
        exact hmissing.elim nofun nofun
      · cases hkind
  | emptyWindow hpast hstart hstop hempty =>
    rw [checkKind, hpast, hstart, hstop] at hkind
    dsimp only at hkind
    split at hkind
    · cases hkind
    · exact hempty (Rules.checkWindow_eq_ok.1 hkind).1
  | windowNotElapsed hpast hstart hstop hearly =>
    rw [checkKind, hpast, hstart, hstop] at hkind
    dsimp only at hkind
    split at hkind
    · cases hkind
    · exact hearly (Rules.checkWindow_eq_ok.1 hkind).2

/-- A request passes the check if it breaks no rule, and only then. -/
theorem check_eq_ok_iff_isValid : r.check now = .ok () ↔ r.IsValid now := by
  refine ⟨fun hcheck n v hbreaks => hbreaks.check_ne hcheck, fun hvalid => ?_⟩
  cases hcheck : r.check now with
  | ok => rfl
  | error v =>
    obtain ⟨n, hbreaks, -⟩ := firstBroken_of_check hcheck
    exact absurd hbreaks (hvalid n v)

/-- The check names what is wrong with the first rule that is broken, and nothing else. -/
theorem check_eq_error : r.check now = .error v ↔ r.FirstBroken now v := by
  refine ⟨firstBroken_of_check, fun ⟨n, hbreaks, hkeeps⟩ => ?_⟩
  cases hcheck : r.check now with
  | ok => exact absurd hcheck hbreaks.check_ne
  | error v' =>
    -- the rule that is named is the one before which all are kept
    obtain ⟨n', hbreaks', hkeeps'⟩ := firstBroken_of_check hcheck
    rcases Nat.lt_trichotomy n n' with hlt | rfl | hlt
    · exact absurd hbreaks (hkeeps' n hlt v)
    · rw [hbreaks.unique hbreaks']
    · exact absurd hbreaks' (hkeeps n' hlt v')

/-! ## Valid requests -/

namespace IsValid

/-- A valid request names evaluators. -/
theorem evaluators_ne (h : r.IsValid now) : r.evaluators ≠ [] :=
  fun hnone => h 2 _ (.evaluators (.none (congrArg _ hnone)))

/-- A valid future request has no window. -/
theorem traces_eq_none (h : r.IsValid now) (hkind : r.kind = .future) :
    r.traceStart = none ∧ r.traceEnd = none := by
  refine ⟨Decidable.byContradiction fun hset => ?_, Decidable.byContradiction fun hset => ?_⟩
  · exact h 4 _ (.windowOfFuture hkind (.inl hset))
  · exact h 4 _ (.windowOfFuture hkind (.inr hset))

/-- A valid past request has a window. -/
theorem exists_window (h : r.IsValid now) (hkind : r.kind = .past) :
    ∃ start stop, r.traceStart = some start ∧ r.traceEnd = some stop := by
  cases hstart : r.traceStart with
  | none => exact absurd (.windowMissing hkind (.inl hstart)) (h 5 _)
  | some start =>
    cases hstop : r.traceEnd with
    | none => exact absurd (.windowMissing hkind (.inr hstop)) (h 5 _)
    | some stop => exact ⟨start, stop, rfl, rfl⟩

end IsValid

end NewMonitor

end TraceWatch
