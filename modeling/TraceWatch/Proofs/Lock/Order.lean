import TraceWatch.Proofs.Lock.Discipline
import TraceWatch.Proofs.System.Faults
import TraceWatch.Proofs.System.Moves

/-!
# Who has the lock

A task has the scheduler lock from the call that takes it to the one that gives it back. At every
moment of every history that is the task by which the lock is held, and each task stands to the lock
as its program says (`Stance`): it has not begun, it has the lock and is to give it back, it has
found the lock held, or it has nothing to do with the lock any more. The invariant is
`Site.KeepsOrder`; it holds whatever else goes on, even if the store fails.
-/

namespace TraceWatch

/-! ## Taking and freeing -/

namespace Event

/-- With the event the task gets the lock. -/
def Takes (k : Nat) (e : Event) : Prop := ∃ a, e = .call k a .acquireLock (.ok true)

/-- Whether the task gets the lock with the event. -/
def takesLock (k : Nat) : Event → Bool
  | call i _ .acquireLock (.ok true) => i = k
  | _ => false

theorem takesLock_iff {k : Nat} {e : Event} : e.takesLock k = true ↔ e.Takes k := by
  constructor
  · intro h
    unfold takesLock at h
    split at h
    · obtain rfl := of_decide_eq_true h
      exact ⟨_, rfl⟩
    · cases h
  · rintro ⟨a, rfl⟩
    exact decide_eq_true rfl

instance (k : Nat) (e : Event) : Decidable (e.Takes k) := decidable_of_iff _ takesLock_iff

/-- With the event the task finds the lock held. -/
def Misses (k : Nat) (e : Event) : Prop := ∃ a, e = .call k a .acquireLock (.ok false)

/-- With the event the task gives the lock back, or loses it as it has left the calendar. -/
def Frees (k : Nat) (e : Event) : Prop :=
  (∃ a answer, e = .call k a .releaseLock answer) ∨ e = .drops k

/-- The event counts a cycle of the task as skipped. -/
def CountsSkip (k : Nat) (e : Event) : Prop :=
  ∃ a, e = .call k a (.count (.cycleEnded .skipped)) ()

theorem Takes.caller_eq {k : Nat} {e : Event} (h : e.Takes k) : e.caller = some k := by
  obtain ⟨a, rfl⟩ := h
  rfl

theorem Misses.caller_eq {k : Nat} {e : Event} (h : e.Misses k) : e.caller = some k := by
  obtain ⟨a, rfl⟩ := h
  rfl

/-- An event that frees the lock takes it for nobody. -/
theorem Frees.not_takes {i k : Nat} {e : Event} (h : e.Frees i) : ¬ e.Takes k := by
  rintro ⟨_, rfl⟩
  rcases h with ⟨_, _, heq⟩ | heq <;> cases heq

/-- An event frees the lock for one task. -/
theorem Frees.iff_eq {i k : Nat} {e : Event} (h : e.Frees i) : e.Frees k ↔ k = i := by
  refine ⟨fun hk => ?_, fun hk => hk ▸ h⟩
  rcases h with ⟨_, _, rfl⟩ | rfl <;> rcases hk with ⟨_, _, heq⟩ | heq <;> cases heq <;> rfl

/-- An event of another task is no miss of this one. -/
theorem not_misses_of_caller {k : Nat} {e : Event} (h : e.caller ≠ some k) : ¬ e.Misses k :=
  fun hmisses => h hmisses.caller_eq

/-- Where the task has not found the lock held, it has not with one event more that is no miss. -/
theorem not_misses_concat {k : Nat} {es : List Event} {e : Event} (hes : ∀ e ∈ es, ¬ e.Misses k)
    (he : ¬ e.Misses k) : ∀ e' ∈ es ++ [e], ¬ e'.Misses k :=
  List.forall_mem_append.2 ⟨hes, List.forall_mem_singleton.2 he⟩

/-- A call that has nothing to do with the lock neither takes nor misses nor frees it. -/
theorem not_of_sparesLock {i k : Nat} {a : Activity} {c : Call} {answer : c.Answer}
    (hc : c.SparesLock) : ¬ (Event.call i a c answer).Takes k ∧
      ¬ (Event.call i a c answer).Misses k ∧ ¬ (Event.call i a c answer).Frees k := by
  refine ⟨?_, ?_, ?_⟩
  · rintro ⟨_, heq⟩
    cases heq
    exact hc.1 rfl
  · rintro ⟨_, heq⟩
    cases heq
    exact hc.1 rfl
  · rintro (⟨_, _, heq⟩ | heq) <;> cases heq
    exact hc.2 rfl

end Event

/-- The task has got the lock and has not given it back since. -/
def HasLock (k : Nat) (es : List Event) : Prop :=
  ∃ es₁ e es₂, es = es₁ ++ e :: es₂ ∧ e.Takes k ∧ ∀ e' ∈ es₂, ¬ e'.Frees k

/-- A task has the lock if it has just got it, or has had it and not just given it back. -/
theorem hasLock_concat {k : Nat} {es : List Event} {e : Event} :
    HasLock k (es ++ [e]) ↔ e.Takes k ∨ (HasLock k es ∧ ¬ e.Frees k) := by
  constructor
  · rintro ⟨es₁, e₁, es₂, heq, htakes, hkeeps⟩
    rcases List.eq_nil_or_concat es₂ with rfl | ⟨es₃, e₂, rfl⟩
    · obtain ⟨-, hlast⟩ := List.append_inj' heq rfl
      cases hlast
      exact .inl htakes
    · rw [List.concat_eq_append] at heq hkeeps
      rw [← List.cons_append, ← List.append_assoc] at heq
      obtain ⟨rfl, hlast⟩ := List.append_inj' heq rfl
      cases hlast
      refine .inr ⟨⟨es₁, e₁, es₃, rfl, htakes, fun e' he' => ?_⟩, ?_⟩
      · exact hkeeps e' (List.mem_append_left _ he')
      · exact hkeeps e (List.mem_append_right _ (.head _))
  · rintro (htakes | ⟨⟨es₁, e₁, es₂, rfl, htakes, hkeeps⟩, hfrees⟩)
    · exact ⟨es, e, [], rfl, htakes, List.forall_mem_nil _⟩
    · refine ⟨es₁, e₁, es₂ ++ [e], by simp, htakes, fun e' he' => ?_⟩
      rcases List.mem_append.1 he' with he' | he'
      · exact hkeeps e' he'
      · rwa [List.mem_singleton.1 he']

/-- When a task frees the lock, it has the lock no more, and others have it if they had. -/
theorem hasLock_concat_of_frees {i k : Nat} {es : List Event} {e : Event} (h : e.Frees i) :
    HasLock k (es ++ [e]) ↔ HasLock k es ∧ k ≠ i := by
  rw [hasLock_concat, h.iff_eq]
  exact or_iff_right h.not_takes

namespace Commons

variable {w w' : Commons} {i k : Nat} {c : Call} {answer : c.Answer}

/-- A task that lets go of the lock does not hold it afterwards; another one that does keeps it. -/
theorem holder_freeLock : (w.freeLock i).holder = some k ↔ w.holder = some k ∧ k ≠ i := by
  unfold freeLock
  split
  · next hholder =>
    rw [hholder]
    simpa using fun h : i = k => h.symm
  · next hholder =>
    refine ⟨fun h => ⟨h, ?_⟩, And.left⟩
    rintro rfl
    exact hholder h

theorem RoughAnswers.holder_eq (h : w.RoughAnswers i c answer w') (hc : c.SparesLock) :
    w'.holder = w.holder := by
  cases h with
  | sound h => exact h.holder_eq hc.1 hc.2
  | fails => rfl

/-- The lock is given to whoever asks for it while nobody holds it, and to nobody else. -/
theorem RoughAnswers.of_acquireLock {taken : Except StoreError Bool}
    (h : w.RoughAnswers i .acquireLock taken w') :
    (w.holder = none ∧ taken = .ok true ∧ w' = { w with holder := some i }) ∨
      (w.holder ≠ none ∧ taken = .ok false ∧ w' = w) := by
  cases h with
  | sound h => exact h

theorem RoughAnswers.of_releaseLock {freed : Except StoreError Unit}
    (h : w.RoughAnswers i .releaseLock freed w') : w' = w.freeLock i := by
  cases h with
  | sound h => exact h.2

end Commons

/-! ## How a task stands to the lock -/

/-- How a task stands to the lock, by what has happened and by who holds the lock. -/
inductive Stance (es : List Event) (holder : Option Nat) (k : Nat) : Task → Prop
  /-- It has made no call. -/
  | opening (a : Activity) : holder ≠ some k → (∀ e ∈ es, e.caller ≠ some k) →
    Stance es holder k (.new a)
  /-- It has the lock. -/
  | inside {task : Task} : holder = some k → (∀ e ∈ es, ¬ e.Misses k) → task.rest.Releases →
    Stance es holder k task
  /-- It has found the lock held, and has done nothing but count that. -/
  | missed {template : String} {rest : Program (Except MonitorError CycleOutcome)} :
    holder ≠ some k → (rest = Service.skipping ∨ rest = .done (.ok .skipped)) →
    (∀ e ∈ es, e.caller = some k → e.Misses k ∨ e.CountsSkip k) →
    Stance es holder k ⟨.cycle template, rest⟩
  /-- It has given the lock back, or has nothing to do with it. -/
  | outside {task : Task} : holder ≠ some k → (∀ e ∈ es, ¬ e.Misses k) → task.rest.SparesLock →
    Stance es holder k task

namespace Stance

variable {es : List Event} {e : Event} {holder holder' : Option Nat} {k : Nat} {task : Task}

/-- What others do does not change how a task stands to the lock, unless it changes whether the
task holds it. -/
theorem concat (h : Stance es holder k task) (hcaller : e.caller ≠ some k)
    (hholder : holder' = some k ↔ holder = some k) : Stance (es ++ [e]) holder' k task := by
  have hmisses : ¬ e.Misses k := Event.not_misses_of_caller hcaller
  cases h with
  | opening a hfree hes =>
    exact .opening a (mt hholder.1 hfree)
      (List.forall_mem_append.2 ⟨hes, List.forall_mem_singleton.2 hcaller⟩)
  | inside hheld hes hrest =>
    exact .inside (hholder.2 hheld) (Event.not_misses_concat hes hmisses) hrest
  | missed hfree hrest hes =>
    refine .missed (mt hholder.1 hfree) hrest fun e' he' hk => ?_
    rcases List.mem_append.1 he' with he' | he'
    · exact hes e' he' hk
    · rw [List.mem_singleton.1 he'] at hk
      exact absurd hk hcaller
  | outside hfree hes hrest =>
    exact .outside (mt hholder.1 hfree) (Event.not_misses_concat hes hmisses) hrest

/-- A task that holds the lock gives it back. -/
theorem releases (h : Stance es holder k task) (hheld : holder = some k) :
    (∀ e ∈ es, ¬ e.Misses k) ∧ task.rest.Releases := by
  cases h with
  | inside _ hes hrest => exact ⟨hes, hrest⟩
  | opening _ hfree => exact absurd hheld hfree
  | missed hfree => exact absurd hheld hfree
  | outside hfree => exact absurd hheld hfree

/-- A task that has returned does not hold the lock. -/
theorem not_held (h : Stance es holder k task)
    {result : Except MonitorError task.activity.Result} (hdone : task.rest = .done result) :
    holder ≠ some k := by
  intro hheld
  have hrest := (h.releases hheld).2
  rw [hdone] at hrest
  cases hrest

/-- A task that has found the lock held has one call left at most, and has done nothing else. -/
theorem of_misses (h : Stance es holder k task) (he : e ∈ es) (hmisses : e.Misses k) :
    ∃ template rest, task = ⟨.cycle template, rest⟩ ∧
      (rest = Service.skipping ∨ rest = .done (.ok .skipped)) ∧
      ∀ e' ∈ es, e'.caller = some k → e'.Misses k ∨ e'.CountsSkip k := by
  cases h with
  | missed _ hrest hes => exact ⟨_, _, rfl, hrest, hes⟩
  | opening _ _ hes => exact absurd hmisses.caller_eq (hes e he)
  | inside _ hes => exact absurd hmisses (hes e he)
  | outside _ hes => exact absurd hmisses (hes e he)

variable {a : Activity} {c : Call} {next : c.Answer → Program (Except MonitorError a.Result)}
  {answer : c.Answer} {w w' : Commons}

/-- How a task stands to the lock after a call of its own. -/
theorem call (h : Stance es w.holder k ⟨a, .call c next⟩) (hw : w.RoughAnswers k c answer w') :
    Stance (es ++ [.call k a c answer]) w'.holder k ⟨a, next answer⟩ := by
  generalize htask : (⟨a, .call c next⟩ : Task) = task at h
  cases h with
  | opening b hfree hes =>
    obtain ⟨rfl, hrun⟩ := Task.mk.inj htask
    have hnone : ∀ e ∈ es, ¬ e.Misses k := fun e he => Event.not_misses_of_caller (hes e he)
    rcases a.opens with ⟨template, rfl⟩ | hspares
    · -- a cycle has just asked for the lock
      have hopens := (eq_of_heq hrun).trans Service.cycle_opens
      cases hopens
      rcases hw.of_acquireLock with ⟨-, rfl, rfl⟩ | ⟨-, rfl, rfl⟩
      · refine .inside rfl (Event.not_misses_concat hnone ?_) Service.held_releases
        rintro ⟨_, heq⟩
        cases heq
      · refine .missed hfree (.inl rfl) fun e he hk => ?_
        rcases List.mem_append.1 he with he | he
        · exact absurd hk (hes e he)
        · rw [List.mem_singleton.1 he]
          exact .inl ⟨_, rfl⟩
    · rw [← eq_of_heq hrun] at hspares
      have hc := @Event.not_of_sparesLock k k a _ answer hspares.1
      exact .outside (by rwa [hw.holder_eq hspares.1]) (Event.not_misses_concat hnone hc.2.1)
        (hspares.2 answer)
  | inside hheld hes hrest =>
    subst htask
    rcases hrest.of_call with ⟨rfl, hspares⟩ | ⟨hc, hrest⟩
    · obtain rfl := hw.of_releaseLock
      refine .outside (fun h => (Commons.holder_freeLock.1 h).2 rfl)
        (Event.not_misses_concat hes ?_) (hspares answer)
      rintro ⟨_, heq⟩
      cases heq
    · exact .inside ((hw.holder_eq hc).trans hheld)
        (Event.not_misses_concat hes (Event.not_of_sparesLock hc).2.1) (hrest answer)
  | missed hfree hrest hes =>
    cases htask
    rcases hrest with hrest | hrest
    · -- all that is left is to count
      cases hrest
      have hc : Call.SparesLock (.count (.cycleEnded .skipped)) := ⟨nofun, nofun⟩
      refine .missed (by rwa [hw.holder_eq hc]) (.inr rfl) fun e he hk => ?_
      rcases List.mem_append.1 he with he | he
      · exact hes e he hk
      · rw [List.mem_singleton.1 he]
        exact .inr ⟨_, rfl⟩
    · cases hrest
  | outside hfree hes hrest =>
    subst htask
    exact .outside (by rwa [hw.holder_eq hrest.1])
      (Event.not_misses_concat hes (Event.not_of_sparesLock hrest.1).2.1) (hrest.2 answer)

end Stance

/-! ## Every history -/

namespace Site

variable {s₀ s s' : Site} {es : List Event} {e : Event} {k : Nat}

/-- No task has begun and nobody holds the lock; anything may be stored. -/
structure IsIdle (s : Site) : Prop where
  tasks : s.tasks = []
  holder : s.commons.holder = none

/-- The lock is held by the task that has it by what has happened, and each task stands to the lock
as its program says. -/
structure KeepsOrder (s : Site) (es : List Event) : Prop where
  holder : ∀ k, s.commons.holder = some k ↔ HasLock k es
  begun : ∀ e ∈ es, ∀ k, e.caller = some k → k < s.tasks.length
  stance : ∀ k task, s.tasks[k]? = some task → Stance es s.commons.holder k task

namespace KeepsOrder

/-- An idle site is in order. -/
theorem start (h : s.IsIdle) : s.KeepsOrder [] := by
  refine ⟨fun k => ⟨fun hk => ?_, ?_⟩, List.forall_mem_nil _, fun k task htask => ?_⟩
  · rw [h.holder] at hk
    cases hk
  · rintro ⟨es₁, e, es₂, heq, -⟩
    simp at heq
  · rw [h.tasks] at htask
    cases htask

/-- What has nothing to do with the lock changes nothing about who has it. -/
theorem hasLock_concat_iff (h : s.KeepsOrder es) (htakes : ¬ e.Takes k) (hfrees : ¬ e.Frees k) :
    HasLock k (es ++ [e]) ↔ s.commons.holder = some k := by
  rw [hasLock_concat, h.holder]
  exact ⟨fun hk => (hk.resolve_left htakes).1, fun hk => .inr ⟨hk, hfrees⟩⟩

/-- An event of a task that has begun is one of a task on the list, which does not get shorter. -/
theorem begun_concat (h : s.KeepsOrder es) (hlength : s.tasks.length ≤ s'.tasks.length)
    (he : ∀ k, e.caller = some k → k < s'.tasks.length) :
    ∀ e' ∈ es ++ [e], ∀ k, e'.caller = some k → k < s'.tasks.length := by
  intro e' he' k hk
  rcases List.mem_append.1 he' with he' | he'
  · exact Nat.lt_of_lt_of_le (h.begun e' he' k hk) hlength
  · rw [List.mem_singleton.1 he'] at hk
    exact he k hk

/-- The holder after a call is the task that has the lock after it. -/
theorem holder_of_call {w w' : Commons} {tasks : List Task} {i : Nat} {a : Activity} {c : Call}
    {answer : c.Answer} (h : KeepsOrder ⟨w, tasks⟩ es) (hw : w.RoughAnswers i c answer w')
    (k : Nat) : w'.holder = some k ↔ HasLock k (es ++ [.call i a c answer]) := by
  have hheld : w.holder = some k ↔ HasLock k es := h.holder k
  by_cases htake : c = .acquireLock
  · subst htake
    have hfrees : ¬ (Event.call i a .acquireLock answer).Frees k := by
      rintro (⟨_, _, heq⟩ | heq) <;> cases heq
    rw [hasLock_concat, ← hheld]
    rcases hw.of_acquireLock with ⟨hnone, rfl, rfl⟩ | ⟨-, rfl, rfl⟩
    · rw [hnone]
      constructor
      · rintro hk
        obtain rfl := Option.some.inj hk
        exact .inl ⟨a, rfl⟩
      · rintro (⟨_, heq⟩ | ⟨hk, -⟩)
        · cases heq
          rfl
        · cases hk
    · refine ⟨fun hk => .inr ⟨hk, hfrees⟩, ?_⟩
      rintro (⟨_, heq⟩ | ⟨hk, -⟩)
      · cases heq
      · exact hk
  · by_cases hfree : c = .releaseLock
    · subst hfree
      obtain rfl := hw.of_releaseLock
      rw [hasLock_concat_of_frees (.inl ⟨a, answer, rfl⟩), ← hheld, Commons.holder_freeLock]
    · have hc : c.SparesLock := ⟨htake, hfree⟩
      obtain ⟨htakes, -, hfrees⟩ := @Event.not_of_sparesLock i k a _ answer hc
      rw [hw.holder_eq hc]
      exact (h.hasLock_concat_iff htakes hfrees).symm

/-- Whether another task holds the lock does not change with a call. -/
theorem holder_iff_of_call {w w' : Commons} {i : Nat} {c : Call} {answer : c.Answer}
    (hw : w.RoughAnswers i c answer w') (hne : k ≠ i) :
    w'.holder = some k ↔ w.holder = some k := by
  by_cases htake : c = .acquireLock
  · subst htake
    rcases hw.of_acquireLock with ⟨hnone, rfl, rfl⟩ | ⟨-, rfl, rfl⟩
    · rw [hnone]
      exact ⟨fun hk => absurd (Option.some.inj hk).symm hne, nofun⟩
    · exact Iff.rfl
  · by_cases hfree : c = .releaseLock
    · subst hfree
      obtain rfl := hw.of_releaseLock
      rw [Commons.holder_freeLock]
      exact and_iff_left hne
    · rw [hw.holder_eq ⟨htake, hfree⟩]

/-- A task that has just begun stands at its beginning: nobody of its number has done anything. -/
theorem opening {w : Commons} {tasks : List Task} (h : KeepsOrder ⟨w, tasks⟩ es) (a : Activity) :
    Stance es w.holder tasks.length (.new a) := by
  have hnone : ∀ e ∈ es, e.caller ≠ some tasks.length :=
    fun e he hcaller => Nat.lt_irrefl _ (h.begun e he _ hcaller)
  refine .opening a (fun hheld => ?_) hnone
  obtain ⟨es₁, e, es₂, rfl, htakes, -⟩ := (h.holder _).1 hheld
  exact hnone e (List.mem_append_right _ (.head _)) htakes.caller_eq

/-- How a task stands to the lock after a task that has left the calendar has lost what it held. -/
theorem stance_drops {w : Commons} {tasks : List Task} (h : KeepsOrder ⟨w, tasks⟩ es) {i : Nat}
    {a : Activity} (hold : tasks[i]? = some ⟨a, .halt⟩) {task : Task}
    (htask : tasks[k]? = some task) :
    Stance (es ++ [.drops i]) (w.freeLock i).holder k task := by
  by_cases hheld : w.holder = some k ∧ k = i
  · obtain ⟨hheld, rfl⟩ := hheld
    obtain ⟨hes, -⟩ := (h.stance k task htask).releases hheld
    obtain rfl : task = ⟨a, .halt⟩ := Option.some.inj (htask.symm.trans hold)
    exact .outside (fun hk => (Commons.holder_freeLock.1 hk).2 rfl)
      (Event.not_misses_concat hes (Event.not_misses_of_caller nofun)) trivial
  · refine (h.stance k task htask).concat nofun ?_
    rw [Commons.holder_freeLock]
    exact ⟨And.left, fun hk => ⟨hk, fun hki => hheld ⟨hk, hki⟩⟩⟩

theorem step (h : s.KeepsOrder es) (hstep : RoughStep s e s') : s'.KeepsOrder (es ++ [e]) := by
  cases hstep with
  | tick w tasks t =>
    refine ⟨fun k => ?_, h.begun_concat (Nat.le_refl _) nofun, fun k task htask => ?_⟩
    · exact (h.hasLock_concat_iff (by rintro ⟨_, heq⟩; cases heq)
        (by rintro (⟨_, _, heq⟩ | heq) <;> cases heq)).symm
    · exact (h.stance k task htask).concat nofun Iff.rfl
  | begins w tasks a =>
    have hlength : tasks.length ≤ (tasks ++ [Task.new a]).length := by simp
    refine ⟨fun k => ?_, h.begun_concat hlength nofun, fun k task htask => ?_⟩
    · exact (h.hasLock_concat_iff (by rintro ⟨_, heq⟩; cases heq)
        (by rintro (⟨_, _, heq⟩ | heq) <;> cases heq)).symm
    · rcases of_getElem?_concat htask with htask | ⟨rfl, rfl⟩
      · exact (h.stance k task htask).concat nofun Iff.rfl
      · exact (h.opening a).concat nofun Iff.rfl
  | @call w w' tasks i a c next answer hold hw =>
    have hlt : i < tasks.length := (List.getElem?_eq_some_iff.1 hold).1
    refine ⟨h.holder_of_call hw, h.begun_concat (by simp) ?_, fun k task htask => ?_⟩
    · intro k hk
      cases hk
      rwa [List.length_set]
    · by_cases hik : i = k
      · subst hik
        rw [List.getElem?_set_self hlt] at htask
        cases htask
        exact (h.stance i _ hold).call hw
      · rw [List.getElem?_set_ne hik] at htask
        refine (h.stance k task htask).concat (fun heq => hik (Option.some.inj heq)) ?_
        exact holder_iff_of_call hw (Ne.symm hik)
  | @drops w tasks i a hold =>
    refine ⟨fun k => ?_, h.begun_concat (Nat.le_refl _) nofun, fun k task htask =>
      h.stance_drops hold htask⟩
    rw [hasLock_concat_of_frees (.inr rfl), ← h.holder, Commons.holder_freeLock]

end KeepsOrder

/-- Every history of an idle site keeps order. -/
theorem RoughHistory.keepsOrder (h : s₀.RoughHistory es s) (hs₀ : s₀.IsIdle) : s.KeepsOrder es := by
  induction h with
  | nil => exact .start hs₀
  | snoc _ hstep ih => exact ih.step hstep

end Site

end TraceWatch
