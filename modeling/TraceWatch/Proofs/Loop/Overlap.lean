import TraceWatch.Proofs.Loop.Lifecycle

/-!
# Requests of several tasks

Several tasks may start and stop one scheduler at the same time. A request to stop takes the loop
out of the slot in one step; in later ones it tells the loop to stop, and returns when the loop has
ended. In between the slot is empty, and what a request to start looks at is the slot. So a loop can
be started while another is alive, and this is the only way in which two come to be alive at one
time (`SharedScheduler.overlap_iff`).
-/

namespace TraceWatch

/-- A request to stop that has taken a loop out of the slot and has not returned. -/
structure PendingStop where
  loop : Nat
  /-- It has told the loop to stop. -/
  told : Bool

/-- A scheduler that several tasks start and stop. -/
structure SharedScheduler where
  base : Background
  stops : List PendingStop

/-- Something that happens to a scheduler that several tasks start and stop. -/
inductive SharedHappening where
  /-- Something other than a request to stop. -/
  | other (h : Happening)
  /-- A request to stop finds the slot empty, and returns. -/
  | findsNone
  /-- A request to stop takes the loop out of the slot. -/
  | takes
  /-- A pending request tells its loop to stop. -/
  | tells (n : Nat)
  /-- A pending request returns. -/
  | returns (n : Nat)

/-- A request to stop is made or returns, at a scheduler of which one task asks at a time. -/
def Happening.IsOfStop : Happening → Prop
  | stops | stopped => True
  | _ => False

namespace SharedScheduler

/-- The loop with an index is alive. -/
def Runs (x : SharedScheduler) (i : Nat) : Prop := ∃ l, x.base.loops[i]? = some l ∧ l.IsAlive

/-- No two loops are alive. -/
def AtMostOne (x : SharedScheduler) : Prop := ∀ i j, x.Runs i → x.Runs j → i = j

/-- A request to stop is waiting for a loop that is alive. -/
def IsStopping (x : SharedScheduler) : Prop := ∃ p ∈ x.stops, x.Runs p.loop

/-- One thing happens. -/
inductive Step (x : SharedScheduler) : SharedHappening → SharedScheduler → Prop
  | other {h : Happening} {b : Background} : ¬ h.IsOfStop → x.base.Step h b →
    Step x (.other h) ⟨b, x.stops⟩
  | findsNone : x.base.slot = none → Step x .findsNone x
  | takes {i : Nat} : x.base.slot = some i →
    Step x .takes ⟨{ x.base with slot := none }, x.stops ++ [⟨i, false⟩]⟩
  | tells {n : Nat} {p : PendingStop} : x.stops[n]? = some p →
    Step x (.tells n)
      ⟨{ x.base with loops := x.base.loops.modify p.loop BackgroundLoop.tell },
        x.stops.set n ⟨p.loop, true⟩⟩
  | returns {n : Nat} {p : PendingStop} : x.stops[n]? = some p → p.told = true →
    ¬ x.Runs p.loop → Step x (.returns n) ⟨x.base, x.stops.eraseIdx n⟩

/-- One thing after the other happens, the latest last. -/
inductive History (x : SharedScheduler) : List SharedHappening → SharedScheduler → Prop
  | nil : History x [] x
  | snoc {es : List SharedHappening} {e : SharedHappening} {x' x'' : SharedScheduler} :
    History x es x' → Step x' e x'' → History x (es ++ [e]) x''

/-- No loop has been started, and nobody has asked to stop one. -/
structure IsFresh (x : SharedScheduler) : Prop where
  base : x.base.IsFresh
  stops : x.stops = []

/-- A loop is started while a request to stop is waiting for another that is alive. -/
def Overtakes (x : SharedScheduler) (es : List SharedHappening) (x' : SharedScheduler) : Prop :=
  ∃ es₁ x₁ token x₂ es₂, es = es₁ ++ .other (.starts token true) :: es₂ ∧ x.History es₁ x₁ ∧
    x₁.Step (.other (.starts token true)) x₂ ∧ x₂.History es₂ x' ∧ x₁.IsStopping

variable {x x' x'' : SharedScheduler} {es es' : List SharedHappening} {e : SharedHappening}

/-! ## Where the loops are -/

/-- A loop that is alive is in the slot, or a request to stop has taken it. -/
structure Tracks (x : SharedScheduler) : Prop where
  awaited : x.base.awaited = none
  slot : ∀ i, x.base.slot = some i → i < x.base.loops.length
  alive : ∀ i, x.Runs i → x.base.slot = some i ∨ ∃ p ∈ x.stops, p.loop = i

theorem IsFresh.tracks (h : x.IsFresh) : x.Tracks := by
  refine ⟨h.base.awaited, fun i hi => ?_, fun i ⟨l, hl, _⟩ => ?_⟩
  · cases h.base.slot.symm.trans hi
  · rw [h.base.loops] at hl
    cases hl

/-- A request to start is granted if the scheduler is enabled and the loop in the slot, if there is
one, is not alive. -/
theorem Tracks.starts_iff (hx : x.Tracks) (token : Nat) :
    x.base.starts token = true ↔
      x.base.settings.enabled = true ∧ ∀ i, x.base.slot = some i → ¬ x.Runs i := by
  have hview : x.base.view.isRunning = true ↔ ∃ i, x.base.slot = some i ∧ x.Runs i := by
    unfold Background.view
    cases hslot : x.base.slot with
    | none => simp [LoopSlot.isRunning]
    | some i =>
      have hl := List.getElem?_eq_getElem (hx.slot i hslot)
      simp [LoopSlot.isRunning, Runs, hl, BackgroundLoop.IsAlive]
  have hstarts : x.base.starts token = true ↔
      x.base.settings.enabled = true ∧ ¬ x.base.view.isRunning = true := by
    rw [Background.starts, LoopSlot.start]
    cases x.base.settings.enabled <;> cases x.base.view.isRunning <;> simp
  rw [hstarts, hview]
  exact and_congr_right fun _ => not_exists.trans (forall_congr' fun _ => not_and)

/-- What a request that has been granted leaves: one loop more, which is in the slot and alive. -/
theorem runs_start {token : Nat} (hgranted : x.base.starts token = true) {i : Nat} :
    Runs ⟨x.base.start token, x.stops⟩ i ↔ x.Runs i ∨ i = x.base.loops.length := by
  unfold Runs
  rw [Background.start_eq, if_pos hgranted]
  constructor
  · rintro ⟨l, hl, halive⟩
    rcases of_getElem?_concat hl with hl | ⟨rfl, -⟩
    · exact .inl ⟨l, hl, halive⟩
    · exact .inr rfl
  · rintro (⟨l, hl, halive⟩ | rfl)
    · exact ⟨l, (List.getElem?_append_left (List.getElem?_eq_some_iff.1 hl).1).trans hl, halive⟩
    · exact ⟨_, List.getElem?_concat_length, rfl⟩

/-- Telling a loop to stop ends none. -/
theorem runs_tell (x : SharedScheduler) (stops : List PendingStop) (i j : Nat) :
    Runs ⟨{ x.base with loops := x.base.loops.modify i BackgroundLoop.tell }, stops⟩ j ↔
      x.Runs j := by
  unfold Runs
  rw [List.getElem?_modify]
  by_cases hij : i = j
  · cases hl : x.base.loops[j]? <;> simp [hij, BackgroundLoop.IsAlive, BackgroundLoop.tell]
  · simp [hij]

/-- A loop is alive after a step only if it was before, or if the step has started it. -/
theorem Step.runs (h : x.Step e x') : (∀ i, x'.Runs i → x.Runs i) ∨
    ∃ token, e = .other (.starts token true) ∧
      ∀ i, x'.Runs i ↔ x.Runs i ∨ i = x.base.loops.length := by
  cases h with
  | @other h b hother hstep =>
    cases hstep with
    | starts token =>
      cases hgranted : x.base.starts token with
      | true => exact .inr ⟨token, rfl, fun i => runs_start hgranted⟩
      | false =>
        rw [Background.start_eq, hgranted]
        exact .inl fun _ => id
    | @loop i l l' move s hl hmove =>
      refine .inl fun j ⟨l₁, hl₁, halive⟩ => ?_
      by_cases hij : i = j
      · subst hij
        exact ⟨l, hl, hmove.alive⟩
      · exact ⟨l₁, (List.getElem?_set_ne hij).symm.trans hl₁, halive⟩
    | elsewhere | passes | cancels | asks => exact .inl fun _ => id
    | stops | stopped => exact absurd trivial hother
  | findsNone | takes | returns => exact .inl fun _ => id
  | tells => exact .inl fun j => (runs_tell x _ _ j).1

/-- Whatever happens, each loop that is alive is accounted for. -/
theorem Tracks.step (hx : x.Tracks) (h : x.Step e x') : x'.Tracks := by
  cases h with
  | @other h b hother hstep =>
    cases hstep with
    | starts token =>
      cases hgranted : x.base.starts token with
      | true =>
        have hruns (i : Nat) := runs_start (i := i) hgranted
        rw [Background.start_eq, if_pos hgranted] at hruns ⊢
        refine ⟨hx.awaited, fun i hi => ?_, fun i hi => ?_⟩
        · cases hi
          simp
        · rcases (hruns i).1 hi with hi | rfl
          · refine .inr ((hx.alive i hi).resolve_left fun hslot => ?_)
            exact ((hx.starts_iff token).1 hgranted).2 i hslot hi
          · exact .inl rfl
      | false =>
        rw [Background.start_eq, hgranted]
        exact hx
    | @loop i l l' move s hl hmove =>
      have hruns := (Step.other hother (.loop hl hmove)).runs
      refine ⟨hx.awaited, fun j hj => ?_, fun j hj => ?_⟩
      · rw [List.length_set]
        exact hx.slot j hj
      · rcases hruns with hruns | ⟨_, heq, -⟩
        · exact hx.alive j (hruns j hj)
        · cases heq
    | elsewhere | passes | cancels | asks => exact ⟨hx.awaited, hx.slot, hx.alive⟩
    | stops | stopped => exact absurd trivial hother
  | findsNone => exact hx
  | @takes i hslot =>
    refine ⟨hx.awaited, nofun, fun j hj => .inr ?_⟩
    rcases hx.alive j hj with hj | ⟨p, hp, hloop⟩
    · cases hslot.symm.trans hj
      exact ⟨_, List.mem_append_right _ (.head _), rfl⟩
    · exact ⟨p, List.mem_append_left _ hp, hloop⟩
  | @tells n p hn =>
    refine ⟨hx.awaited, fun j hj => ?_, fun j hj => ?_⟩
    · rw [List.length_modify]
      exact hx.slot j hj
    · refine (hx.alive j ((runs_tell x _ _ j).1 hj)).imp_right fun ⟨q, hq, hloop⟩ => ?_
      obtain ⟨m, hm⟩ := List.mem_iff_getElem?.1 hq
      by_cases hmn : n = m
      · subst hmn
        cases hn.symm.trans hm
        have hlt := (List.getElem?_eq_some_iff.1 hn).1
        exact ⟨_, List.mem_of_getElem? (List.getElem?_set_self hlt), hloop⟩
      · exact ⟨q, List.mem_of_getElem? ((List.getElem?_set_ne hmn).trans hm), hloop⟩
  | @returns n p hn htold hended =>
    refine ⟨hx.awaited, hx.slot, fun j hj => (hx.alive j hj).imp_right fun ⟨q, hq, hloop⟩ => ?_⟩
    obtain ⟨m, hm⟩ := List.mem_iff_getElem?.1 hq
    refine ⟨q, List.mem_eraseIdx_iff_getElem?.2 ⟨m, ?_, hm⟩, hloop⟩
    rintro rfl
    cases hn.symm.trans hm
    exact hended (hloop ▸ hj)

theorem History.tracks (h : x.History es x') (hx : x.IsFresh) : x'.Tracks := by
  induction h with
  | nil => exact hx.tracks
  | snoc _ hstep ih => exact ih.step hstep

/-! ## When loops overlap -/

/-- A history can be followed by another. -/
theorem History.append (h : x.History es x') (h' : x'.History es' x'') :
    x.History (es ++ es') x'' := by
  induction h' with
  | nil => rwa [List.append_nil]
  | snoc _ hstep ih =>
    rw [← List.append_assoc]
    exact .snoc ih hstep

/-- What has been overtaken stays so. -/
theorem Overtakes.append (h : x.Overtakes es x') (h' : x'.History es' x'') :
    x.Overtakes (es ++ es') x'' := by
  obtain ⟨es₁, x₁, token, x₂, es₂, rfl, hbefore, hstep, hafter, hstopping⟩ := h
  refine ⟨es₁, x₁, token, x₂, es₂ ++ es', ?_, hbefore, hstep, hafter.append h', hstopping⟩
  rw [List.append_assoc, List.cons_append]

/-- If no two loops were alive and two are after a step, the step has started one of them while a
request to stop was waiting for the other. -/
theorem Tracks.of_crowded (hx : x.Tracks) (hone : x.AtMostOne) (h : x.Step e x')
    (htwo : ¬ x'.AtMostOne) :
    ∃ token, e = .other (.starts token true) ∧ x.IsStopping := by
  rcases h.runs with hruns | ⟨token, rfl, hruns⟩
  · exact absurd (fun i j hi hj => hone i j (hruns i hi) (hruns j hj)) htwo
  · refine ⟨token, rfl, ?_⟩
    obtain ⟨i, hi⟩ : ∃ i, x.Runs i := by
      -- otherwise the new loop would be the only one
      by_contra hnone
      have hnew (i : Nat) (hi : x'.Runs i) : i = x.base.loops.length :=
        ((hruns i).1 hi).resolve_left fun h => hnone ⟨i, h⟩
      exact htwo fun i j hi hj => (hnew i hi).trans (hnew j hj).symm
    generalize hanswer : true = answer at h
    cases h with
    | other _ hstep =>
      cases hstep with
      | starts =>
        rcases hx.alive i hi with hslot | ⟨p, hp, rfl⟩
        · exact absurd hi (((hx.starts_iff token).1 hanswer.symm).2 i hslot)
        · exact ⟨p, hp, hi⟩

/-- A loop that is started while a request to stop is waiting for another is not alone. -/
theorem IsStopping.crowds {token : Nat} (hx : x.IsStopping)
    (h : x.Step (.other (.starts token true)) x') : ¬ x'.AtMostOne := by
  intro hone
  obtain ⟨p, -, l, hl, halive⟩ := hx
  generalize hanswer : true = answer at h
  cases h with
  | other _ hstep =>
    cases hstep with
    | starts =>
      have hruns (i : Nat) := runs_start (i := i) hanswer.symm
      have heq := hone _ _ ((hruns _).2 (.inl ⟨l, hl, halive⟩)) ((hruns _).2 (.inr rfl))
      exact absurd (List.getElem?_eq_some_iff.1 hl).1 (Nat.not_lt.2 (Nat.le_of_eq heq.symm))

/-- After a history no two loops are alive, or one has been started while a request to stop was
waiting for another. -/
theorem History.atMostOne_or_overtakes (h : x.History es x') (hx : x.IsFresh) :
    x'.AtMostOne ∨ x.Overtakes es x' := by
  induction h with
  | nil =>
    refine .inl fun i j ⟨l, hl, _⟩ => ?_
    rw [hx.base.loops] at hl
    cases hl
  | @snoc es e x' x'' hbefore hstep ih =>
    rcases ih with hone | hovertakes
    · by_cases htwo : x''.AtMostOne
      · exact .inl htwo
      · obtain ⟨token, rfl, hstopping⟩ := (hbefore.tracks hx).of_crowded hone hstep htwo
        exact .inr ⟨es, x', token, x'', [], rfl, hbefore, hstep, .nil, hstopping⟩
    · exact .inr (hovertakes.append (.snoc .nil hstep))

/-- Whatever is asked of a scheduler and in whatever order, a start is granted exactly if the
scheduler is enabled and the loop in its slot, if there is one, is not alive; and two loops are
alive at some moment exactly if a start is granted while a request to stop is waiting for a loop
that is alive. -/
theorem overlap_iff {x₀ : SharedScheduler} (hfresh : x₀.IsFresh) (h : x₀.History es x) :
    (∀ token answer x', x.Step (.other (.starts token answer)) x' →
      (answer = true ↔
        x.base.settings.enabled = true ∧ ∀ i, x.base.slot = some i → ¬ x.Runs i)) ∧
      ((∃ es₁ x₁ es₂, es = es₁ ++ es₂ ∧ x₀.History es₁ x₁ ∧ x₁.History es₂ x ∧ ¬ x₁.AtMostOne) ↔
        x₀.Overtakes es x) := by
  refine ⟨fun token answer x' hstep => ?_, ?_, ?_⟩
  · cases hstep with
    | other _ hstep =>
      cases hstep with
      | starts => exact (h.tracks hfresh).starts_iff token
  · rintro ⟨es₁, x₁, es₂, rfl, hbefore, hafter, htwo⟩
    exact ((hbefore.atMostOne_or_overtakes hfresh).resolve_left htwo).append hafter
  · rintro ⟨es₁, x₁, token, x₂, es₂, rfl, hbefore, hstep, hafter, hstopping⟩
    refine ⟨es₁ ++ [.other (.starts token true)], x₂, es₂, ?_, .snoc hbefore hstep, hafter,
      hstopping.crowds hstep⟩
    rw [List.append_assoc, List.singleton_append]

/-- A request to start comes while a request to stop is waiting for the cycle of its loop. -/
def restarted : List SharedHappening :=
  [.other (.starts 7 true), .other (.loop 0 .ticks),
    .other (.loop 0 (.works .acquireLock (.ok true))), .takes, .tells 0,
    .other (.starts 8 true), .other (.loop 1 .ticks)]

/-- Of a scheduler that has begun the first cycle of one loop while the cycle of another has the
lock. -/
theorem overlap_iff_restarted :
    let x₀ : SharedScheduler :=
      ⟨.posted (.holding [.hourly 1000 "tone" ⟨3600, 0⟩] ⟨3700, 0⟩), []⟩
    ∃ x, x₀.IsFresh ∧ x₀.History restarted x ∧ ¬ x.AtMostOne ∧ x₀.Overtakes restarted x ∧
      x.base.loops.map BackgroundLoop.cycles = [[0], [1]] ∧
      x.base.site.commons.holder = some 0 := by
  intro x₀
  have hfresh : x₀.IsFresh := ⟨⟨rfl, rfl, rfl, rfl, rfl⟩, rfl⟩
  have hstarts : x₀.History [.other (.starts 7 true)] ⟨x₀.base.start 7, []⟩ :=
    .snoc .nil (.other id (.starts 7 rfl))
  have hticks := hstarts.snoc (.other id (.loop (i := 0) rfl
    (.ticks (BackgroundLoop.isIdle_of_nil rfl _) rfl (.begins _ _ _))))
  have hworks := hticks.snoc (.other id (.loop (i := 0) rfl
    (.works (k := 0) ⟨rfl, rfl⟩ (.call rfl (.sound (.inl ⟨rfl, rfl, rfl⟩))) nofun)))
  have hstops := (hworks.snoc (.takes (i := 0) rfl)).snoc (.tells (n := 0) rfl)
  have hrestarts := hstops.snoc (.other id (.starts 8 rfl))
  have hhistory : x₀.History restarted _ := hrestarts.snoc (.other id (.loop (i := 1) rfl
    (.ticks (BackgroundLoop.isIdle_of_nil rfl _) rfl (.begins _ _ _))))
  suffices htwo : ¬ AtMostOne _ from ⟨_, hfresh, hhistory, htwo,
    (overlap_iff hfresh hhistory).2.1 ⟨restarted, _, [], rfl, hhistory, .nil, htwo⟩, rfl, rfl⟩
  intro hone
  have heq : 0 = 1 := hone 0 1 ⟨_, rfl, rfl⟩ ⟨_, rfl, rfl⟩
  cases heq

end SharedScheduler

end TraceWatch
