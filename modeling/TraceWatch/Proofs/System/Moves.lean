import TraceWatch.Proofs.Program.Plays
import TraceWatch.Proofs.System.Commons

/-!
# What a task has done

A history looked at from one task is a play of the task's program: `Site.History.exists_moves` gives
the moves, which are the calls of the task in the order in which they were answered. So what is
known about all plays of an operation is known about every task that carries it out. While nobody
else calls, each move finds the store as the move before it left it (`Chained`).
-/

namespace TraceWatch

/-! ## Moves in a row -/

namespace Program

variable {α : Type}

/-- The moves carry the program from its beginning to what is left of it. -/
inductive Leads (p : Program α) : List Move → Program α → Prop
  | nil : Leads p [] p
  | snoc {moves : List Move} {c : Call} {next : c.Answer → Program α} {answer : c.Answer}
    {before after : Store} :
    Leads p moves (.call c next) → Move.IsSound ⟨c, answer, before, after⟩ →
      Leads p (moves ++ [⟨c, answer, before, after⟩]) (next answer)

/-- Moves that lead to a program can be followed by a play of it. -/
theorem Leads.plays_append {p q : Program α} {moves : List Move} (h : p.Leads moves q) :
    ∀ {rest : List Move} {v : α}, Plays q rest v → Plays p (moves ++ rest) v := by
  induction h with
  | nil => exact id
  | snoc _ hsound ih =>
    intro rest v hrest
    rw [List.append_assoc]
    exact ih (.call hsound hrest)

/-- Moves that lead to the end are a play. -/
theorem Leads.plays {p : Program α} {moves : List Move} {v : α} (h : p.Leads moves (.done v)) :
    Plays p moves v := by
  simpa using h.plays_append (.done v)

/-- What is left of a program that comes to an end comes to an end. -/
theorem Leads.returns {p q : Program α} {moves : List Move} (h : p.Leads moves q)
    (hp : p.Returns) : q.Returns := by
  induction h with
  | nil => exact hp
  | snoc _ _ ih => exact ih _

/-- What is left of a program halts only if the program does. -/
theorem Leads.haltsOnlyIf {P : Prop} {p q : Program α} {moves : List Move} (h : p.Leads moves q)
    (hp : p.HaltsOnlyIf P) : q.HaltsOnlyIf P := by
  induction h with
  | nil => exact hp
  | snoc _ _ ih => exact ih _

/-- A program that calls makes that call first. -/
theorem Leads.of_call {c : Call} {next : c.Answer → Program α} {moves : List Move} {q : Program α}
    (h : Leads (.call c next) moves q) :
    (moves = [] ∧ q = .call c next) ∨ ∃ answer before after rest,
      moves = ⟨c, answer, before, after⟩ :: rest ∧ Move.IsSound ⟨c, answer, before, after⟩ ∧
        (next answer).Leads rest q := by
  induction h with
  | nil => exact .inl ⟨rfl, rfl⟩
  | snoc _ hsound ih =>
    rcases ih with ⟨rfl, heq⟩ | ⟨answer, before, after, rest, rfl, hfirst, hrest⟩
    · cases heq
      exact .inr ⟨_, _, _, [], rfl, hsound, .nil⟩
    · exact .inr ⟨answer, before, after, _, rfl, hfirst, .snoc hrest hsound⟩

/-- A program that calls and halts in the end has made that call. -/
theorem Leads.of_halt {c : Call} {next : c.Answer → Program α} {moves : List Move}
    (h : Leads (.call c next) moves .halt) :
    ∃ answer before after rest, moves = ⟨c, answer, before, after⟩ :: rest ∧
      Move.IsSound ⟨c, answer, before, after⟩ ∧ (next answer).Leads rest .halt := by
  rcases h.of_call with ⟨-, heq⟩ | h
  · cases heq
  · exact h

end Program

/-- Each move finds the store as the one before it has left it. -/
def Chained : Store → List Move → Store → Prop
  | s, [], s' => s' = s
  | s, move :: rest, s' => move.before = s ∧ Chained move.after rest s'

theorem Chained.snoc {move : Move} : ∀ {moves : List Move} {s : Store},
    Chained s moves move.before → Chained s (moves ++ [move]) move.after
  | [], _, h => ⟨h, rfl⟩
  | _ :: _, _, h => ⟨h.1, h.2.snoc⟩

/-- A row of moves can be cut anywhere. -/
theorem Chained.of_append {s' : Store} : ∀ {first second : List Move} {s : Store},
    Chained s (first ++ second) s' → ∃ s₁, Chained s first s₁ ∧ Chained s₁ second s'
  | [], _, s, h => ⟨s, rfl, h⟩
  | _ :: _, _, _, h =>
    have ⟨s₁, hfirst, hsecond⟩ := Chained.of_append h.2
    ⟨s₁, ⟨h.1, hfirst⟩, hsecond⟩

/-- Idle moves in a row leave the store as it was. -/
theorem Chained.eq_of_allIdle {s' : Store} : ∀ {moves : List Move} {s : Store},
    Chained s moves s' → AllIdle moves → s' = s
  | [], _, h, _ => h
  | move :: _, s, h, hidle => by
    obtain ⟨hmove, hrest⟩ := allIdle_cons.1 hidle
    obtain ⟨rfl, h⟩ := h
    rw [h.eq_of_allIdle hrest]
    exact hmove

/-- A program that comes to an end can be carried out on any store by itself, whatever the workflow
plane answers. -/
theorem Program.Returns.exists_plays {α : Type}
    (plane : (c : PlaneCall) → Except PlaneError c.Answer) : ∀ {p : Program α}, p.Returns →
    ∀ s, ∃ moves v s', Plays p moves v ∧ Chained s moves s' ∧
      ∀ call ∈ planeMoves moves, call.2 = plane call.1
  | .done v, _, s => ⟨[], v, s, .done v, rfl, List.forall_mem_nil _⟩
  | .call c next, h, s => by
    have hquiet {move : Move} (h : move.plane? = none) :
        ∀ call ∈ move.plane?, call.2 = plane call.1 := by
      rw [h]
      rintro call ⟨⟩
    have hanswer : ∃ answer s₁, Move.IsSound ⟨c, answer, s, s₁⟩ ∧
        ∀ call ∈ Move.plane? ⟨c, answer, s, s₁⟩, call.2 = plane call.1 := by
      cases c with
      | now => exact ⟨⟨0, 0⟩, s, rfl, hquiet rfl⟩
      | freshId => exact ⟨⟨0⟩, s, rfl, hquiet rfl⟩
      | cancelled => exact ⟨false, s, rfl, hquiet rfl⟩
      | count => exact ⟨(), s, rfl, hquiet rfl⟩
      | acquireLock => exact ⟨.ok true, s, rfl, hquiet rfl⟩
      | releaseLock => exact ⟨.ok (), s, rfl, hquiet rfl⟩
      | store d => exact ⟨_, _, ⟨⟨0, 0⟩, rfl⟩, hquiet rfl⟩
      | plane d =>
        refine ⟨plane d, s, rfl, fun call hcall => ?_⟩
        cases hcall
        rfl
    obtain ⟨answer, s₁, hsound, hfirst⟩ := hanswer
    obtain ⟨moves, v, s', hplays, hrow, hcalls⟩ := (h answer).exists_plays plane s₁
    refine ⟨_ :: moves, v, s', .call hsound hplays, ⟨rfl, hrow⟩, fun call hcall => ?_⟩
    obtain ⟨move, hmove, hof⟩ := List.mem_filterMap.1 hcall
    rcases List.mem_cons.1 hmove with rfl | hmove
    · exact hfirst call hof
    · exact hcalls call (List.mem_filterMap.2 ⟨move, hmove, hof⟩)

section

variable {α : Type} {moves : List Move} {v : α} {s s' : Store}

/-- A call of the store in a row of moves is answered from the store at its beginning. -/
theorem Program.Plays.of_store_row {c : StoreCall} {next : Except StoreError c.Answer → Program α}
    (h : Plays (.call (.store c) next) moves v) (hrow : Chained s moves s') :
    ∃ now rest, moves = ⟨.store c, (c.perform now s).1, s, (c.perform now s).2⟩ :: rest ∧
      Plays (next (c.perform now s).1) rest v ∧ Chained (c.perform now s).2 rest s' := by
  obtain ⟨answer, before, after, rest, rfl, ⟨now, hanswer⟩, hrest⟩ := h.of_call
  obtain ⟨rfl, hrow⟩ := hrow
  obtain rfl : answer = (c.perform now before).1 := congrArg Prod.fst hanswer
  obtain rfl : after = (c.perform now before).2 := congrArg Prod.snd hanswer
  exact ⟨now, rest, rfl, hrest, hrow⟩

/-- Any other call in a row of moves leaves the store as it was. -/
theorem Program.Plays.of_idle_row {c : Call} {next : c.Answer → Program α}
    (h : Plays (.call c next) moves v) (hrow : Chained s moves s') (hc : ∀ d, c ≠ .store d) :
    ∃ answer rest, moves = ⟨c, answer, s, s⟩ :: rest ∧ Plays (next answer) rest v ∧
      Chained s rest s' := by
  obtain ⟨answer, before, after, rest, rfl, hsound, hrest⟩ := h.of_call
  obtain ⟨rfl, hrow⟩ := hrow
  obtain rfl : after = before := by
    cases c with
    | store d => exact absurd rfl (hc d)
    | _ => exact hsound
  exact ⟨answer, rest, rfl, hrest, hrow⟩

end

/-! ## The moves of a task -/

/-- The task whose call has been answered, if the event is an answer. -/
def Event.caller : Event → Option Nat
  | call i _ _ _ => some i
  | _ => none

/-- The event that a move of a task is. -/
def Move.event (k : Nat) (a : Activity) (move : Move) : Event :=
  .call k a move.call move.answer

/-- An answer given at a site is sound for the store there. -/
theorem Commons.Answers.isSound {w w' : Commons} {i : Nat} {c : Call} {answer : c.Answer}
    (h : w.Answers i c answer w') : Move.IsSound ⟨c, answer, w.store, w'.store⟩ := by
  cases c with
  | store d => exact ⟨w.clock, Prod.ext h.1 (by rw [h.2])⟩
  | _ => exact h.store_eq fun _ => nofun

namespace Site

variable {s₀ s : Site} {es : List Event}

/-- Tasks are never taken off the list. -/
theorem History.tasks_length (h : s₀.History es s) : s₀.tasks.length ≤ s.tasks.length := by
  induction h with
  | nil => exact Nat.le_refl _
  | snoc _ hstep ih =>
    cases hstep with
    | begins => exact Nat.le_trans ih (by rw [List.length_append]; exact Nat.le_add_right _ _)
    | call => rwa [List.length_set]
    | _ => exact ih

/-- Only tasks that have begun make calls. -/
theorem History.caller_lt (h : s₀.History es s) {e : Event} (he : e ∈ es) {k : Nat}
    (hk : e.caller = some k) : k < s.tasks.length := by
  induction h with
  | nil => cases he
  | snoc _ hstep ih =>
    rcases List.mem_append.1 he with he | he
    · exact Nat.lt_of_lt_of_le (ih he) (History.snoc .nil hstep).tasks_length
    · obtain rfl := List.mem_singleton.1 he
      cases hstep with
      | call htask =>
        cases hk
        rw [List.length_set]
        exact (List.getElem?_eq_some_iff.1 htask).1
      | _ => cases hk

/-- A task goes on with the activity it has begun. -/
theorem Step.exists_task {s' : Site} {e : Event} (h : Step s e s') {k : Nat} {a : Activity}
    {rest : Program (Except MonitorError a.Result)} (htask : s.tasks[k]? = some ⟨a, rest⟩) :
    ∃ rest', s'.tasks[k]? = some ⟨a, rest'⟩ := by
  cases h with
  | tick => exact ⟨rest, htask⟩
  | drops => exact ⟨rest, htask⟩
  | begins =>
    exact ⟨rest, (List.getElem?_append_left (List.getElem?_eq_some_iff.1 htask).1).trans htask⟩
  | @call _ _ _ i _ _ _ _ hold =>
    by_cases hik : i = k
    · subst hik
      cases hold.symm.trans htask
      exact ⟨_, List.getElem?_set_self (List.getElem?_eq_some_iff.1 htask).1⟩
    · exact ⟨rest, (List.getElem?_set_ne hik).trans htask⟩

/-- Whoever has made a call is among the tasks. -/
theorem History.exists_task (h : s₀.History es s) {k : Nat} {a : Activity} {c : Call}
    {answer : c.Answer} (he : .call k a c answer ∈ es) : ∃ rest, s.tasks[k]? = some ⟨a, rest⟩ := by
  induction h with
  | nil => cases he
  | snoc _ hstep ih =>
    rcases List.mem_append.1 he with he | he
    · obtain ⟨rest, htask⟩ := ih he
      exact hstep.exists_task htask
    · obtain rfl := List.mem_singleton.1 he
      cases hstep with
      | call htask _ => exact ⟨_, List.getElem?_set_self (List.getElem?_eq_some_iff.1 htask).1⟩

/-- The store is changed by calls only. -/
theorem Step.store_eq {s' : Site} {e : Event} (h : Step s e s') (he : e.caller = none) :
    s'.commons.store = s.commons.store := by
  cases h with
  | call => cases he
  | @drops w _ i => exact w.freeLock_store i
  | _ => rfl

theorem History.store_eq (h : s₀.History es s) (hes : ∀ e ∈ es, e.caller = none) :
    s.commons.store = s₀.commons.store := by
  induction h with
  | nil => rfl
  | snoc _ hstep ih =>
    rw [hstep.store_eq (hes _ (List.mem_append_right _ (.head _)))]
    exact ih fun e he => hes e (List.mem_append_left _ he)

/-- A history comes to each of its events, and goes on after it. -/
theorem History.split_cons {es es' : List Event} {e : Event} {s' : Site}
    (h : s.History (es ++ e :: es') s') :
    ∃ s₁ s₂, s.History es s₁ ∧ Step s₁ e s₂ ∧ s₂.History es' s' := by
  generalize heq : es ++ e :: es' = all at h
  induction h generalizing es' with
  | nil => simp at heq
  | @snoc before last s₁ s₂ hbefore hstep ih =>
    rcases List.eq_nil_or_concat es' with rfl | ⟨mid, e', rfl⟩
    · obtain ⟨rfl, hlast⟩ := List.append_inj' heq rfl
      obtain rfl : e = last := (List.cons.inj hlast).1
      exact ⟨s₁, s₂, hbefore, hstep, .nil⟩
    · rw [List.concat_eq_append] at heq ⊢
      rw [← List.cons_append, ← List.append_assoc] at heq
      obtain ⟨hmid, hlast⟩ := List.append_inj' heq rfl
      obtain rfl : e' = last := (List.cons.inj hlast).1
      obtain ⟨u, u', hu, hevent, hafter⟩ := ih hmid
      exact ⟨u, u', hu, hevent, .snoc hafter hstep⟩

/-- The history comes to the move of the task, and goes on after it. -/
def ComesTo (s₀ s : Site) (es : List Event) (k : Nat) (a : Activity) (move : Move) : Prop :=
  ∃ es₁ s₁ s₂ es₂, es = es₁ ++ move.event k a :: es₂ ∧ s₀.History es₁ s₁ ∧
    Step s₁ (move.event k a) s₂ ∧ s₂.History es₂ s ∧
    s₁.commons.store = move.before ∧ s₂.commons.store = move.after

/-- A history that goes on has come to its moves as well. -/
theorem ComesTo.snoc {s' : Site} {e : Event} {k : Nat} {a : Activity} {move : Move}
    (h : s₀.ComesTo s es k a move) (hstep : Step s e s') : s₀.ComesTo s' (es ++ [e]) k a move :=
  have ⟨es₁, s₁, s₂, es₂, heq, hbefore, hmove, hafter, hstores⟩ := h
  ⟨es₁, s₁, s₂, es₂ ++ [e], by rw [heq, List.append_assoc, List.cons_append], hbefore, hmove,
    .snoc hafter hstep, hstores⟩

/-- The moves are those of a task in a history, and they lead from its beginning to what is left of
it. If nobody else has called, they are moves in a row. -/
structure AreMoves (s₀ s : Site) (es : List Event) (k : Nat) (a : Activity) (moves : List Move)
    (rest : Program (Except MonitorError a.Result)) : Prop where
  leads : a.operation.run.Leads moves rest
  events : es.filter (·.caller = some k) = moves.map (·.event k a)
  comes : ∀ move ∈ moves, s₀.ComesTo s es k a move
  chained : (∀ e ∈ es, ∀ i, e.caller = some i → i = k) →
    Chained s₀.commons.store moves s.commons.store

namespace AreMoves

variable {k : Nat} {a : Activity} {moves : List Move}
  {rest : Program (Except MonitorError a.Result)}

/-- What another task does, or nobody, adds no move. -/
theorem snoc_other {s' : Site} {e : Event} (h : AreMoves s₀ s es k a moves rest)
    (hstep : Step s e s') (he : e.caller ≠ some k) :
    AreMoves s₀ s' (es ++ [e]) k a moves rest := by
  refine ⟨h.leads, ?_, fun move hmove => (h.comes move hmove).snoc hstep, fun halone => ?_⟩
  · rw [List.filter_append, List.filter_singleton, h.events]
    simp [he]
  · have hnone : e.caller = none := by
      rw [Option.eq_none_iff_forall_not_mem]
      intro i hi
      exact he (halone e (List.mem_append_right _ (.head _)) i hi ▸ hi)
    rw [hstep.store_eq hnone]
    exact h.chained fun e he => halone e (List.mem_append_left _ he)

/-- A call of the task is one more move. -/
theorem snoc_call {w w' : Commons} {tasks : List Task} {c : Call}
    {next : c.Answer → Program (Except MonitorError a.Result)} {answer : c.Answer}
    (h : AreMoves s₀ ⟨w, tasks⟩ es k a moves (.call c next)) (hbefore : s₀.History es ⟨w, tasks⟩)
    (htask : tasks[k]? = some ⟨a, .call c next⟩) (hw : w.Answers k c answer w') :
    AreMoves s₀ ⟨w', tasks.set k ⟨a, next answer⟩⟩ (es ++ [.call k a c answer]) k a
      (moves ++ [⟨c, answer, w.store, w'.store⟩]) (next answer) := by
  have hstep := Step.call htask hw
  refine ⟨.snoc h.leads hw.isSound, ?_, fun move hmove => ?_, fun halone => ?_⟩
  · rw [List.filter_append, h.events, List.map_append]
    simp [Event.caller, Move.event]
  · rcases List.mem_append.1 hmove with hmove | hmove
    · exact (h.comes move hmove).snoc hstep
    · obtain rfl := List.mem_singleton.1 hmove
      exact ⟨es, _, _, [], rfl, hbefore, hstep, .nil, rfl, rfl⟩
  · exact (h.chained fun e he => halone e (List.mem_append_left _ he)).snoc

/-- The moves of a task are its calls in the history. -/
theorem event_mem_iff (h : AreMoves s₀ s es k a moves rest) {b : Activity} {c : Call}
    {answer : c.Answer} :
    .call k b c answer ∈ es ↔ b = a ∧ ∃ before after, ⟨c, answer, before, after⟩ ∈ moves := by
  have hmem : .call k b c answer ∈ es ↔ .call k b c answer ∈ moves.map (·.event k a) := by
    rw [← h.events, List.mem_filter]
    simp [Event.caller]
  rw [hmem, List.mem_map]
  constructor
  · rintro ⟨⟨c', answer', before, after⟩, hmove, heq⟩
    cases heq
    exact ⟨rfl, before, after, hmove⟩
  · rintro ⟨rfl, before, after, hmove⟩
    exact ⟨_, hmove, rfl⟩

/-- A move of the task is an event of the history. -/
theorem event_mem (h : AreMoves s₀ s es k a moves rest) {move : Move} (hmove : move ∈ moves) :
    move.event k a ∈ es :=
  h.event_mem_iff.2 ⟨rfl, move.before, move.after, hmove⟩

/-- What is read off the events of the task alone is read off its moves. -/
theorem filterMap_eq {β : Type} {f : Event → Option β} {g : Move → Option β}
    (h : AreMoves s₀ s es k a moves rest) (hothers : ∀ e, e.caller ≠ some k → f e = none)
    (hown : ∀ move, f (move.event k a) = g move) : es.filterMap f = moves.filterMap g := by
  have hf : (fun e : Event => if decide (e.caller = some k) = true then f e else none) = f := by
    funext e
    by_cases he : e.caller = some k
    · simp [he]
    · simp [he, hothers e he]
  have hevents := congrArg (List.filterMap f) h.events
  rwa [List.filterMap_filter, List.filterMap_map, hf,
    show f ∘ (·.event k a) = g from funext hown] at hevents

/-- A history can be cut at each move of the task. -/
theorem split {first last : List Move} {move : Move}
    (h : AreMoves s₀ s es k a (first ++ move :: last) rest) :
    ∃ es₁ es₂, es = es₁ ++ move.event k a :: es₂ ∧
      es₁.filter (·.caller = some k) = first.map (·.event k a) ∧
      es₂.filter (·.caller = some k) = last.map (·.event k a) := by
  have hevents := h.events
  rw [List.map_append, List.map_cons, List.filter_eq_append_iff] at hevents
  obtain ⟨before, after, rfl, hbefore, hafter⟩ := hevents
  obtain ⟨between, es₂, rfl, hbetween, -, hlast⟩ := List.filter_eq_cons_iff.1 hafter
  refine ⟨before ++ between, es₂, by rw [List.append_assoc], ?_, hlast⟩
  rw [List.filter_append, hbefore, List.filter_eq_nil_iff.2 hbetween, List.append_nil]

end AreMoves

/-- A task that has begun in a history has made its calls in the history as moves. -/
theorem History.exists_moves (h : s₀.History es s) {k : Nat} (hk : s₀.tasks.length ≤ k)
    {a : Activity} {rest : Program (Except MonitorError a.Result)}
    (htask : s.tasks[k]? = some ⟨a, rest⟩) : ∃ moves, AreMoves s₀ s es k a moves rest := by
  induction h generalizing a with
  | nil => exact absurd (List.getElem?_eq_some_iff.1 htask).1 (Nat.not_lt.2 hk)
  | @snoc es e s₁ s₂ hbefore hstep ih =>
    -- unless the task has just begun or made a call, it is as it was
    have other (he : e.caller ≠ some k) (hsame : s₁.tasks[k]? = some ⟨a, rest⟩) :
        ∃ moves, AreMoves s₀ s₂ (es ++ [e]) k a moves rest :=
      have ⟨moves, hmoves⟩ := ih hsame
      ⟨moves, hmoves.snoc_other hstep he⟩
    cases hstep with
    | tick w tasks t => exact other nofun htask
    | drops => exact other nofun htask
    | begins w tasks b =>
      rcases of_getElem?_concat htask with htask | ⟨rfl, heq⟩
      · exact other nofun htask
      · cases heq
        -- nobody of this number has called before
        have hnone : ∀ e ∈ es, e.caller ≠ some tasks.length :=
          fun e he hcaller => Nat.lt_irrefl _ (hbefore.caller_lt he hcaller)
        refine ⟨[], .nil, ?_, List.forall_mem_nil _, fun halone => ?_⟩
        · rw [List.filter_append, List.filter_eq_nil_iff.2 (by simpa using hnone)]
          rfl
        · refine hbefore.store_eq fun e he => Option.eq_none_iff_forall_not_mem.2 fun i hi => ?_
          exact hnone e he (halone e (List.mem_append_left _ he) i hi ▸ hi)
    | @call w w' tasks i b c next answer hold hw =>
      by_cases hik : i = k
      · subst hik
        rw [List.getElem?_set_self (List.getElem?_eq_some_iff.1 hold).1] at htask
        cases htask
        obtain ⟨moves, hmoves⟩ := ih hold
        exact ⟨_, hmoves.snoc_call hbefore hold hw⟩
      · rw [List.getElem?_set_ne hik] at htask
        exact other (fun heq => hik (Option.some.inj heq)) htask

end Site

end TraceWatch
