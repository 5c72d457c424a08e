import Mathlib.Data.Nat.Find
import TraceWatch.Proofs.Lock.Order

/-!
# One cycle at a time

Cycles that share the scheduler lock work one at a time, whatever else goes on at the site and even
if the store fails: `Site.cycles_take_turns`. That no two have the lock at once is in the order that
every history keeps (`Site.KeepsOrder`). That the lock gets free again is a statement about infinite
histories in which no task is left waiting for ever (`Course.IsFair`); it is proved by induction on
what is left of the program of the task that has the lock.
-/

namespace TraceWatch

/-! ## Infinite histories -/

/-- The task that gets on with the event. -/
def Event.actor : Event → Option Nat
  | call i _ _ _ | drops i => some i
  | _ => none

/-- A task that does not get on with an event stays as it is, and has the lock if it had it. -/
theorem Site.RoughStep.frame {s s' : Site} {e : Event} {k : Nat} {task : Task}
    (hstep : s.RoughStep e s') (he : e.actor ≠ some k) (htask : s.tasks[k]? = some task) :
    s'.tasks[k]? = some task ∧ (s'.commons.holder = some k ↔ s.commons.holder = some k) := by
  cases hstep with
  | tick => exact ⟨htask, Iff.rfl⟩
  | begins =>
    have hlt := (List.getElem?_eq_some_iff.1 htask).1
    exact ⟨(List.getElem?_append_left hlt).trans htask, Iff.rfl⟩
  | @call w w' tasks i a c next answer hold hw =>
    have hik : i ≠ k := fun heq => he (congrArg some heq)
    exact ⟨(List.getElem?_set_ne hik).trans htask, KeepsOrder.holder_iff_of_call hw (Ne.symm hik)⟩
  | @drops w tasks i a hold =>
    have hik : i ≠ k := fun heq => he (congrArg some heq)
    exact ⟨htask, Commons.holder_freeLock.trans (and_iff_left (Ne.symm hik))⟩

/-- An infinite history of a site whose store may fail. -/
structure Course where
  site : Nat → Site
  event : Nat → Event
  step : ∀ n, (site n).RoughStep (event n) (site (n + 1))

namespace Course

/-- No task waits for ever: one that has begun and has not returned gets on at some time. -/
def IsFair (c : Course) : Prop :=
  ∀ n k task, (c.site n).tasks[k]? = some task → (∀ result, task.rest ≠ .done result) →
    ∃ m, n ≤ m ∧ (c.event m).actor = some k

/-- The task is waiting with the lock, and this is what it has still to do. -/
def Waits (s : Site) (k : Nat) (task : Task) : Prop :=
  s.tasks[k]? = some task ∧ s.commons.holder = some k

/-- A task that has the lock waits with it while others get on. -/
theorem waits_step {s s' : Site} {e : Event} {k : Nat} {task : Task} (h : Waits s k task)
    (hstep : s.RoughStep e s') (he : e.actor ≠ some k) : Waits s' k task := by
  obtain ⟨htask, hholder⟩ := hstep.frame he h.1
  exact ⟨htask, hholder.2 h.2⟩

/-- When its turn comes, a task that has the lock loses it if it has left the calendar, and
otherwise its call is answered. -/
theorem turn_of_waits {s s' : Site} {e : Event} {k : Nat} {a : Activity}
    {rest : Program (Except MonitorError a.Result)} (h : Waits s k ⟨a, rest⟩)
    (hstep : s.RoughStep e s') (he : e.actor = some k) :
    (rest = .halt ∧ s'.commons = s.commons.freeLock k) ∨ ∃ c next answer, rest = .call c next ∧
      s.commons.RoughAnswers k c answer s'.commons ∧ s'.tasks[k]? = some ⟨a, next answer⟩ := by
  obtain ⟨htask, -⟩ := h
  cases hstep with
  | tick | begins => cases he
  | drops hold =>
    cases he
    cases hold.symm.trans htask
    exact .inl ⟨rfl, rfl⟩
  | call hold hw =>
    cases he
    cases hold.symm.trans htask
    exact .inr ⟨_, _, _, rfl, hw, List.getElem?_set_self (List.getElem?_eq_some_iff.1 htask).1⟩

variable {c : Course}

theorem waits_add {n k : Nat} {task : Task} (h : Waits (c.site n) k task) :
    ∀ d, (∀ j < d, (c.event (n + j)).actor ≠ some k) → Waits (c.site (n + d)) k task
  | 0, _ => h
  | d + 1, hothers =>
    waits_step (waits_add h d fun j hj => hothers j (Nat.lt_succ_of_lt hj)) (c.step (n + d))
      (hothers d (Nat.lt_succ_self d))

/-- In a fair course a task that has the lock and has not returned makes its next step with it. -/
theorem exists_turn (hfair : c.IsFair) {n k : Nat} {task : Task} (h : Waits (c.site n) k task)
    (hopen : ∀ result, task.rest ≠ .done result) :
    ∃ m, n ≤ m ∧ Waits (c.site m) k task ∧ (c.event m).actor = some k := by
  have hturn : ∃ d, (c.event (n + d)).actor = some k := by
    obtain ⟨m, hle, hm⟩ := hfair n k task h.1 hopen
    exact ⟨m - n, by rwa [Nat.add_sub_cancel' hle]⟩
  classical
  refine ⟨n + Nat.find hturn, Nat.le_add_right _ _, waits_add h _ fun j hj => ?_,
    Nat.find_spec hturn⟩
  exact Nat.find_min hturn hj

/-- In a fair course a task that has the lock and is to give it back does so, or loses it. -/
theorem frees (hfair : c.IsFair) {k : Nat} {a : Activity}
    {rest : Program (Except MonitorError a.Result)} (hrest : rest.Releases) :
    ∀ n, Waits (c.site n) k ⟨a, rest⟩ → ∃ m, n ≤ m ∧ (c.site m).commons.holder = none := by
  have freed {w : Commons} (hheld : w.holder = some k) : (w.freeLock k).holder = none := by
    rw [Commons.freeLock, if_pos hheld]
  -- by induction on what is left to do
  induction hrest with
  | halt =>
    intro n hwaits
    obtain ⟨m, hle, hwaits, hturn⟩ := exists_turn hfair hwaits fun _ heq => by cases heq
    refine ⟨m + 1, Nat.le_succ_of_le hle, ?_⟩
    obtain ⟨-, hfreed⟩ | ⟨_, _, _, heq, -⟩ := turn_of_waits hwaits (c.step m) hturn
    · rw [hfreed]
      exact freed hwaits.2
    · cases heq
  | @release next _ =>
    intro n hwaits
    obtain ⟨m, hle, hwaits, hturn⟩ := exists_turn hfair hwaits fun _ heq => by cases heq
    refine ⟨m + 1, Nat.le_succ_of_le hle, ?_⟩
    obtain ⟨heq, -⟩ | ⟨_, _, _, heq, hw, -⟩ := turn_of_waits hwaits (c.step m) hturn
    · cases heq
    · cases heq
      rw [hw.of_releaseLock]
      exact freed hwaits.2
  | @call d next hd _ ih =>
    intro n hwaits
    obtain ⟨m, hle, hwaits, hturn⟩ := exists_turn hfair hwaits fun _ heq => by cases heq
    obtain ⟨heq, -⟩ | ⟨_, _, answer, heq, hw, htask⟩ := turn_of_waits hwaits (c.step m) hturn
    · cases heq
    · cases heq
      obtain ⟨m', hle', hfree⟩ := ih answer (m + 1) ⟨htask, (hw.holder_eq hd).trans hwaits.2⟩
      exact ⟨m', Nat.le_trans (Nat.le_succ_of_le hle) hle', hfree⟩

/-- A course that goes on from a site in order stays in order. -/
theorem keepsOrder {es : List Event} (h : (c.site 0).KeepsOrder es) :
    ∀ n, ∃ es', (c.site n).KeepsOrder es'
  | 0 => ⟨es, h⟩
  | n + 1 =>
    have ⟨_, h'⟩ := keepsOrder h n
    ⟨_, h'.step (c.step n)⟩

/-- In a fair course that goes on from a site in order the lock is free again and again. -/
theorem free_again (hfair : c.IsFair) {es : List Event} (h : (c.site 0).KeepsOrder es) (n : Nat) :
    ∃ m, n ≤ m ∧ (c.site m).commons.holder = none := by
  cases hholder : (c.site n).commons.holder with
  | none => exact ⟨n, Nat.le_refl n, hholder⟩
  | some k =>
    obtain ⟨es', h'⟩ := keepsOrder h n
    obtain ⟨es₁, e, es₂, rfl, htakes, -⟩ := (h'.holder k).1 hholder
    have hlt := h'.begun e (List.mem_append_right _ (.head _)) k htakes.caller_eq
    have htask := List.getElem?_eq_getElem hlt
    exact frees hfair ((h'.stance k _ htask).releases hholder).2 n ⟨htask, hholder⟩

end Course

/-! ## The statement -/

namespace Site

variable {s₀ s : Site} {es : List Event}

/-- The task has found the lock held: it returns that it has skipped, with one call left at most, by
which it counts that, and it has made no other call and changed nothing in the store. -/
structure Skips (s₀ s : Site) (es : List Event) (k : Nat) : Prop where
  returns : ∃ template rest, s.tasks[k]? = some ⟨.cycle template, rest⟩ ∧
    (rest = .call (.count (.cycleEnded .skipped)) (fun _ => .done (.ok .skipped)) ∨
      rest = .done (.ok .skipped))
  calls : ∀ e ∈ es, e.caller = some k → e.Misses k ∨ e.CountsSkip k
  idle : ∀ es₁ e es₂ s₁ s₂, es = es₁ ++ e :: es₂ → e.caller = some k → s₀.RoughHistory es₁ s₁ →
    s₁.RoughStep e s₂ → s₂.commons.store = s₁.commons.store

/-- How cycles share the lock, after what has happened at a site and in what may happen from now
on. -/
structure TakesTurns (s₀ s : Site) (es : List Event) : Prop where
  /-- No two tasks have the lock. -/
  exclusive : ∀ j k, HasLock j es → HasLock k es → j = k
  /-- Whoever asks for the lock gets it if nobody has it, and finds it held if somebody does. -/
  asks : ∀ k a answer s', s.RoughStep (.call k a .acquireLock answer) s' →
    (answer = .ok true ∧ ∀ j, ¬ HasLock j es) ∨ (answer = .ok false ∧ ∃ j, HasLock j es)
  /-- A cycle that finds the lock held skips. -/
  skips : ∀ k, (∃ e ∈ es, e.Misses k) → s₀.Skips s es k
  /-- Whatever a task returns, it does not have the lock any more. -/
  returned : ∀ k task result, s.tasks[k]? = some task → task.rest = .done result → ¬ HasLock k es
  /-- If every task gets on, the lock is free again and again. -/
  again : ∀ c : Course, c.site 0 = s → c.IsFair →
    ∀ n, ∃ m, n ≤ m ∧ (c.site m).commons.holder = none

/-- Cycles that share the lock take turns, whatever else happens and even if the store fails: no two
of them have the lock at once, one that finds it held skips and changes nothing, one that has
returned has given it back, and the lock never stays with anybody. -/
theorem cycles_take_turns (hs₀ : s₀.IsIdle) (h : s₀.RoughHistory es s) : s₀.TakesTurns s es := by
  have horder := h.keepsOrder hs₀
  refine ⟨fun j k hj hk => ?_, fun k a answer s' hstep => ?_, fun k hmisses => ?_,
    fun k task result htask hdone hk => ?_, fun c hc hfair => ?_⟩
  · exact Option.some.inj (((horder.holder j).2 hj).symm.trans ((horder.holder k).2 hk))
  · cases hstep with
    | call hold hw =>
      rcases hw.of_acquireLock with ⟨hnone, rfl, -⟩ | ⟨hsome, rfl, -⟩
      · refine .inl ⟨rfl, fun j hj => ?_⟩
        cases hnone.symm.trans ((horder.holder j).2 hj)
      · obtain ⟨j, hj⟩ := Option.ne_none_iff_exists'.1 hsome
        exact .inr ⟨rfl, j, (horder.holder j).1 hj⟩
  · obtain ⟨e, he, hmisses⟩ := hmisses
    have hlt := horder.begun e he k hmisses.caller_eq
    have htask := List.getElem?_eq_getElem hlt
    obtain ⟨template, rest, heq, hrest, hcalls⟩ := (horder.stance k _ htask).of_misses he hmisses
    refine ⟨⟨template, rest, htask.trans (congrArg some heq), hrest⟩, hcalls, ?_⟩
    rintro es₁ e₁ es₂ s₁ s₂ rfl hcaller - hstep
    rcases hcalls e₁ (List.mem_append_right _ (.head _)) hcaller with ⟨_, rfl⟩ | ⟨_, rfl⟩
    · cases hstep with
      | call _ hw => cases hw with | sound hw => exact hw.store_eq fun _ => nofun
    · cases hstep with
      | call _ hw => cases hw with | sound hw => exact hw.store_eq fun _ => nofun
  · exact (horder.stance k task htask).not_held hdone ((horder.holder k).2 hk)
  · have hstart : (c.site 0).KeepsOrder es := hc ▸ horder
    exact Course.free_again hfair hstart

/-- A cycle has taken the lock, and another one has found it held. -/
def contention : List Turn :=
  [.newcomer (.cycle "evaluation"), .task 0, .task 0] ++ Turn.alone (.cycle "evaluation") 1 2

/-- The first cycle comes to its end, and a third one takes the lock. -/
def succession : List Turn :=
  [.task 0, .task 0] ++ Turn.alone (.cycle "evaluation") 2 1

/-- Of three cycles, of which the first fails as the store does while the second asks for the
lock. -/
theorem cycles_take_turns_storeFails :
    let lost := StoreError.database "connection closed"
    let s₀ := holding [.hourly 1000 "tone" ⟨3600, 0⟩] ⟨3700, 0⟩
    ∃ es s, s₀.afterFailure .accepting contention 0 lost succession = some (es, s) ∧
      s₀.IsIdle ∧ s₀.RoughHistory es s ∧ s₀.TakesTurns s es ∧
      s.tasks[0]?.any (fun t => t.HasFailed (.store lost)) = true ∧
      s.tasks[1]?.any (fun t => t.HasSucceeded) = true ∧ s.commons.holder = some 2 := by
  intro lost s₀
  have hidle : s₀.IsIdle := ⟨rfl, rfl⟩
  have hsome : (s₀.afterFailure .accepting contention 0 lost succession).isSome = true := by
    decide +kernel
  have hend : ((s₀.afterFailure .accepting contention 0 lost succession).any fun r =>
      r.2.tasks[0]?.any (fun t => t.HasFailed (.store lost)) &&
        r.2.tasks[1]?.any (fun t => t.HasSucceeded) && r.2.commons.holder = some 2) = true := by
    decide +kernel
  obtain ⟨⟨es, s⟩, heq⟩ := Option.isSome_iff_exists.1 hsome
  rw [heq] at hend
  simp only [Option.any_some, Bool.and_eq_true, decide_eq_true_eq] at hend
  obtain ⟨⟨hfailed, hskipped⟩, hholder⟩ := hend
  have hes : s₀.RoughHistory es s := roughHistory_of_afterFailure heq
  exact ⟨es, s, heq, hidle, hes, cycles_take_turns hidle hes, hfailed, hskipped, hholder⟩

end Site

end TraceWatch
