import TraceWatch.Proofs.Protocol.Reachable
import TraceWatch.Proofs.Schedule.Recall
import TraceWatch.Proofs.Schedule.Tiling
import TraceWatch.Proofs.System.Moves

/-!
# What is behind a plan

A cycle plans the next run of a monitor from the copy it was told is due and from its own reading of
the clock. Then it records the run, and moves the schedule to where the plan says, without looking
at the monitor again. So whoever is carrying out a plan has made it from such a copy
(`HasPlanned`), and when the schedule is about to be moved the window of the plan is the last that
was recorded (`Phase.Plans`). Every history keeps this: `Scene.History.plans`.
-/

namespace TraceWatch

/-! ## Events that plans stand for -/

/-- The task is a cycle that has read the clock. -/
def HasRead (i : Nat) (now : Timestamp) (es : List Event) : Prop :=
  ∃ template, .call i (.cycle template) .now now ∈ es

/-- The task is a cycle that has been told that the monitor is due, and the plan is the one for it
at an instant that the cycle has read off the clock. -/
structure HasPlanned (i : Nat) (m : Monitor) (plan : Plan) (es : List Event) : Prop where
  listed : HasListed i m es
  made : ∃ now, HasRead i now es ∧ Plan.make m.nextRun m.interval now = .ok (some plan)

section

variable {i : Nat} {m : Monitor} {plan : Plan} {now : Timestamp} {es : List Event}

theorem HasRead.concat (h : HasRead i now es) (e : Event) : HasRead i now (es ++ [e]) :=
  have ⟨template, hread⟩ := h
  ⟨template, List.mem_append_left _ hread⟩

theorem HasPlanned.concat (h : HasPlanned i m plan es) (e : Event) :
    HasPlanned i m plan (es ++ [e]) :=
  have ⟨now, hread, hplan⟩ := h.made
  ⟨h.listed.concat, now, hread.concat e, hplan⟩

end

/-! ## What phases stand for -/

namespace Phase

/-- What a cycle has read off the clock. -/
def reading : Phase → Option Timestamp
  | timed now | rounds now _ | advancing now _ _ _ => some now
  | submitting (.trigger now _ _) _ _ | accepted (.trigger now _ _) _ _ _
  | stamped (.trigger now _ _) _ _ _ _ | refused (.trigger now _ _) _ _ _ => some now
  | _ => none

/-- The plan that a cycle is carrying out, and the monitor it is for. -/
def plan : Phase → Option (Monitor × Plan)
  | submitting (.trigger _ _ next) x _ | accepted (.trigger _ _ next) x _ _
  | stamped (.trigger _ _ next) x _ _ _ => some (x.monitor, ⟨x.window, next⟩)
  | _ => none

/-- The monitor whose schedule a cycle is about to move on, and where to. -/
def move : Phase → Option (Monitor × Timestamp)
  | advancing _ _ m next => some (m, next)
  | _ => none

/-- A cycle that is carrying out a plan is under the lock. -/
theorem holdsLock_of_plan {φ : Phase} {p : Monitor × Plan} (h : p ∈ φ.plan) : φ.HoldsLock := by
  cases φ with
  | submitting k | accepted k | stamped k =>
    cases k with
    | trigger => trivial
    | initial | rerun => cases h
  | _ => cases h

/-- A cycle that is about to move a schedule on is under the lock. -/
theorem holdsLock_of_move {φ : Phase} {p : Monitor × Timestamp} (h : p ∈ φ.move) :
    φ.HoldsLock := by
  cases φ <;> trivial

/-- It does not just read. -/
theorem not_mayRead_of_move {φ : Phase} {p : Monitor × Timestamp} (h : p ∈ φ.move) :
    ¬ φ.MayRead := by
  cases φ <;> first | exact id | cases h

/-- A cycle reads the clock before it plans, plans for a monitor of which it has been told, and
records the window of its plan before it moves the schedule on. -/
structure Plans (i : Nat) (es : List Event) (φ : Phase) : Prop where
  read : ∀ now ∈ φ.reading, HasRead i now es
  planned : ∀ p ∈ φ.plan, HasPlanned i p.1 p.2 es
  moving : ∀ p ∈ φ.move, ∃ window, HasPlanned i p.1 ⟨window, p.2⟩ es ∧
    (scheduledWindows p.1.id es).getLast? = some window

/-- An idle task has planned nothing. -/
theorem plans_idle (i : Nat) (es : List Event) : idle.Plans i es where
  read := fun _ h => (by cases h)
  planned := fun _ h => (by cases h)
  moving := fun _ h => (by cases h)

/-- What is behind a plan stays behind it, whatever happens; but no window of the monitor may be
recorded before the schedule is moved on. -/
theorem Plans.concat {i : Nat} {es : List Event} {φ : Phase} (h : φ.Plans i es) {e : Event}
    (he : φ.HoldsLock → ∀ id, e.scheduled? id = none) : φ.Plans i (es ++ [e]) where
  read := fun now hnow => (h.read now hnow).concat e
  planned := fun p hp => (h.planned p hp).concat e
  moving := fun p hp => by
    obtain ⟨window, hplanned, hlast⟩ := h.moving p hp
    refine ⟨window, hplanned.concat e, ?_⟩
    rw [scheduledWindows_concat, he (holdsLock_of_move hp), Option.toList_none, List.append_nil]
    exact hlast

end Phase

namespace Passage

variable {a : Activity} {φ φ' : Phase} {c : Call} {answer : c.Answer} {w w' : Commons} {i : Nat}
  {es : List Event}

/-- What a cycle has read off the clock it has read before, or just now. -/
theorem reading {now : Timestamp} (h : Passage a φ c answer φ') (hnow : now ∈ φ'.reading) :
    now ∈ φ.reading ∨ HasRead i now [.call i a c answer] := by
  cases h with
  | time =>
    cases hnow
    exact .inr ⟨_, .head _⟩
  | @submit _ k | @reject _ k | @stamp _ k | @record _ k | @refuse _ k | @compensate _ k =>
    cases k with
    | trigger => exact .inl hnow
    | initial | rerun => cases hnow
  | _ => first | exact .inl hnow | cases hnow

/-- A plan was being carried out before, or it has just been made for a monitor that was to be
submitted. -/
theorem plan {p : Monitor × Plan} (h : Passage a φ c answer φ') (hp : p ∈ φ'.plan) :
    p ∈ φ.plan ∨ (p.1 ∈ φ.pending ∧
      ∃ now ∈ φ.reading, Plan.make p.1.nextRun p.1.interval now = .ok (some p.2)) := by
  cases h with
  | aim hplan =>
    cases hp
    exact .inr ⟨List.mem_append_right _ (.head _), _, rfl, hplan⟩
  | @submit _ k | @reject _ k | @stamp _ k | @record _ k | @refuse _ k | @compensate _ k =>
    cases k with
    | trigger => first | exact .inl hp | cases hp
    | initial | rerun => cases hp
  | _ => exact .inl hp

/-- A cycle that is about to move a schedule on was so before, or it has just recorded the window of
its plan. -/
theorem move {p : Monitor × Timestamp} (h : Passage a φ c answer φ') (hp : p ∈ φ'.move) :
    (p ∈ φ.move ∧ ∀ id, (Event.call i a c answer).scheduled? id = none) ∨
      ∃ window, (p.1, ⟨window, p.2⟩) ∈ φ.plan ∧
        (Event.call i a c answer).scheduled? p.1.id = some window := by
  cases h with
  | @record a k x id job now hk =>
    cases k with
    | trigger now rest next =>
      cases hp
      cases a with
      | cycle template => exact .inr ⟨x.window, rfl, Event.scheduled?_record rfl⟩
      | _ => exact False.elim hk
    | initial | rerun => cases hp
  | tally => exact .inl ⟨hp, fun _ => rfl⟩
  | read _ hmay => exact absurd hmay (Phase.not_mayRead_of_move hp)
  | waste hmay =>
    rcases hmay with hmay | ⟨_, _, rfl⟩
    · exact absurd hmay (Phase.not_mayRead_of_move hp)
    · cases hp
  | @reject _ k | @compensate _ k => cases k <;> cases hp
  | _ => cases hp

/-- After a passage a plan is still behind the phase, if it was before. -/
theorem plans (h : Passage a φ c answer φ') (hφ : φ.Plans i es) (hrecalls : φ.Recalls i es) :
    φ'.Plans i (es ++ [.call i a c answer]) where
  read := by
    intro now hnow
    rcases h.reading (i := i) hnow with hold | ⟨template, hread⟩
    · exact (hφ.read now hold).concat _
    · exact ⟨template, List.mem_append_right _ hread⟩
  planned := by
    intro p hp
    rcases h.plan hp with hold | ⟨hpending, now, hnow, hplan⟩
    · exact (hφ.planned p hold).concat _
    · exact ⟨(hrecalls.listed p.1 hpending).concat, now, (hφ.read now hnow).concat _, hplan⟩
  moving := by
    intro p hp
    rcases h.move (i := i) hp with ⟨hold, hnone⟩ | ⟨window, hplan, hwindow⟩
    · obtain ⟨window, hplanned, hlast⟩ := hφ.moving p hold
      refine ⟨window, hplanned.concat _, ?_⟩
      rw [scheduledWindows_concat, hnone, Option.toList_none, List.append_nil]
      exact hlast
    · refine ⟨window, (hφ.planned _ hplan).concat _, ?_⟩
      rw [scheduledWindows_concat, hwindow]
      simp

/-- No task has to do with a monitor twice. -/
theorem monitors_nodup (h : Passage a φ c answer φ') (hw : w.Answers i c answer w')
    (hstore : (w.store.monitors.map Monitor.id).Nodup) (hφ : (φ.monitors.map Monitor.id).Nodup) :
    (φ'.monitors.map Monitor.id).Nodup := by
  have hone : ∀ m : Monitor, ([m].map Monitor.id).Nodup := fun m => List.nodup_singleton _
  cases h with
  | snapshot => exact hw.nodup_of_dueMonitors hstore
  | aim => exact hφ.sublist ((List.sublist_append_right _ _).map _)
  | advance => exact hφ.of_cons
  | @submit _ k | @reject _ k | @stamp _ k | @record _ k | @refuse _ k | @compensate _ k =>
    cases k with
    | trigger => first | exact hφ | exact hφ.of_cons
    | initial | rerun => first | exact hone _ | exact List.nodup_nil
  | _ => first | exact hφ | exact hone _ | exact List.nodup_nil

end Passage

/-! ## Every history -/

namespace Scene

/-- A cycle that records a run is under the lock. -/
theorem Step.holdsLock_of_scheduled {s s' : Scene} {e : Event} (h : Step s e s') {id : Uuid}
    (he : e.scheduled? id ≠ none) : ∃ k, (s.phase k).HoldsLock ∧ e.caller = some k := by
  obtain ⟨k, template, r, rfl, -⟩ := Event.of_scheduled? he
  cases h with
  | call hpassage _ =>
    obtain ⟨purpose, x, run, job, now, hphase, -, hsuits, -⟩ := hpassage.createRun
    refine ⟨k, ?_, rfl⟩
    dsimp only
    rw [hphase]
    cases purpose with
    | trigger => trivial
    | initial | rerun => exact False.elim hsuits

/-- What is behind the plans of all tasks stays behind them. -/
theorem Step.plans {s s' : Scene} {e : Event} {es : List Event} (h : Step s e s')
    (hexclusive : s.Exclusive) (hrecalls : ∀ i, (s.phase i).Recalls i es)
    (hplans : ∀ i, (s.phase i).Plans i es) (i : Nat) : (s'.phase i).Plans i (es ++ [e]) := by
  -- whoever else is under the lock keeps the others from recording windows
  have hother : e.caller ≠ some i → (s.phase i).HoldsLock → ∀ id, e.scheduled? id = none := by
    intro hcaller hlock id
    by_contra hsome
    obtain ⟨k, hk, heq⟩ := h.holdsLock_of_scheduled hsome
    exact hcaller (heq.trans (congrArg some (hexclusive.eq hk hlock)))
  rcases h.call_or_rests with ⟨k, a, c, answer, rfl⟩ | ⟨hnot, hrests⟩
  · cases h with
    | call hpassage hw =>
      refine Phase.to_update (·.Plans i _) ?_ fun hik => (hplans i).concat (hother ?_)
      · rintro rfl
        exact hpassage.plans (hplans i) (hrecalls i)
      · exact fun heq => hik (Option.some.inj heq).symm
  · refine hrests.to_phase (P := (·.Plans i _)) (Phase.plans_idle i _) ((hplans i).concat ?_)
    refine hother ?_
    cases e with
    | call => exact absurd rfl (hnot _ _ _ _)
    | _ => exact fun heq => (by cases heq)

/-- Every plan has been made by a cycle that had been told of its monitor. -/
theorem History.plans {w : Commons} {s : Scene} {es : List Event} (h : (ofCommons w).History es s) :
    ∀ i, (s.phase i).Plans i es := by
  induction h with
  | nil => exact fun i => Phase.plans_idle i []
  | snoc hbefore hstep ih =>
    exact hstep.plans (hbefore.preserves Exclusive.step (.start w)) hbefore.recalls ih

/-- In every reachable scene no task has to do with a monitor twice. -/
theorem Reachable.monitors_nodup {s : Scene} (hs : s.Reachable) (i : Nat) :
    ((s.phase i).monitors.map Monitor.id).Nodup := by
  refine hs.invariant (I := fun s => ∀ i, ((s.phase i).monitors.map Monitor.id).Nodup)
    (fun _ _ _ _ => List.nodup_nil) (fun {s e s'} hs h hstep i => ?_) i
  obtain ⟨home, hid⟩ := hs.identities
  rcases hstep.call_or_rests with ⟨k, a, c, answer, rfl⟩ | ⟨-, hrests⟩
  · cases hstep with
    | call hpassage hw =>
      refine Phase.to_update (fun φ => (φ.monitors.map Monitor.id).Nodup) ?_ fun _ => h i
      rintro rfl
      exact hpassage.monitors_nodup hw hid.nodup (h i)
  · exact hrests.to_phase (P := fun φ => (φ.monitors.map Monitor.id).Nodup) List.nodup_nil (h i)

end Scene

/-! ## Proper instants -/

namespace Scene

variable {s s' : Scene} {es : List Event}

/-- A clock that is set to proper instants only shows no others. -/
theorem History.clock_isProper (h : s.History es s') (hes : ∀ e ∈ es, e.IsPunctual)
    (hs : s.commons.clock.IsProper) : s'.commons.clock.IsProper := by
  induction h with
  | nil => exact hs
  | snoc _ hstep ih =>
    exact hstep.clock_isProper (hes _ (List.mem_append_right _ (.head _)))
      (ih fun e he => hes e (List.mem_append_left _ he))

/-- What a cycle reads off such a clock is proper. -/
theorem History.isProper_of_read (h : s.History es s') (hes : ∀ e ∈ es, e.IsPunctual)
    (hs : s.commons.clock.IsProper) {i : Nat} {now : Timestamp} (hread : HasRead i now es) :
    now.IsProper := by
  obtain ⟨template, hread⟩ := hread
  obtain ⟨es₁, u, u', es₂, rfl, hbefore, hstep, -⟩ := h.of_mem hread
  have hu := hbefore.clock_isProper (fun e he => hes e (List.mem_append_left _ he)) hs
  cases hstep with
  | call _ hw =>
    obtain ⟨rfl, -⟩ := hw
    exact hu

end Scene

end TraceWatch
