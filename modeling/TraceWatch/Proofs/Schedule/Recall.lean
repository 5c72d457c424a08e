import TraceWatch.Proofs.Protocol.Identity

/-!
# What is behind a phase

A phase holds what its task was told, so it stands for events that have happened. A cycle has been
told that the monitors it has still to submit are due and, before it stores how far a run has come,
what the workflow plane reports of its job; a deletion or a stop that has succeeded has found the
monitor by its name and then taken it away (`Phase.Recalls`). Every history keeps such records:
`Scene.History.recalls`.
-/

namespace TraceWatch

/-! ## Events that phases stand for -/

/-- The task has found the monitor by its name. -/
def HasFound (i : Nat) (m : Monitor) (es : List Event) : Prop :=
  ∃ a, .call i a (.store (.findByName m.org m.name)) (.ok (some m)) ∈ es

/-- The task is a cycle that has been told that the monitor is due. -/
def HasListed (i : Nat) (m : Monitor) (es : List Event) : Prop :=
  ∃ template now due,
    .call i (.cycle template) (.store (.dueMonitors now)) (.ok due) ∈ es ∧ m ∈ due

/-- The task is a cycle that has been told how a job is getting on. -/
def HasHeard (i : Nat) (job : JobRef) (report : Json) (es : List Event) : Prop :=
  ∃ template, .call i (.cycle template) (.plane (.resource job)) (.ok report) ∈ es

/-- With the event the task takes a monitor off its schedule, by a stop or by a deletion. -/
inductive Event.Withdraws (i : Nat) (id : Uuid) : Event → Prop
  | stop (org name : String) :
    Withdraws i id (.call i (.stop org name) (.store (.suspend id)) (.ok true))
  | delete (org name : String) :
    Withdraws i id (.call i (.delete org name) (.store (.deleteMonitor id)) (.ok ()))

/-- The task has found the monitor by its name and has taken it off its schedule afterwards. -/
def HasWithdrawn (i : Nat) (m : Monitor) (es : List Event) : Prop :=
  ∃ es₁ e es₂, es = es₁ ++ e :: es₂ ∧ e.Withdraws i m.id ∧ HasFound i m es₁

section

variable {i : Nat} {m : Monitor} {es : List Event} {e : Event}

theorem HasFound.concat (h : HasFound i m es) : HasFound i m (es ++ [e]) :=
  have ⟨a, ha⟩ := h
  ⟨a, List.mem_append_left _ ha⟩

theorem HasListed.concat (h : HasListed i m es) : HasListed i m (es ++ [e]) :=
  have ⟨template, now, due, hlisted, hm⟩ := h
  ⟨template, now, due, List.mem_append_left _ hlisted, hm⟩

theorem HasHeard.concat {job : JobRef} {report : Json} (h : HasHeard i job report es) :
    HasHeard i job report (es ++ [e]) :=
  have ⟨template, hheard⟩ := h
  ⟨template, List.mem_append_left _ hheard⟩

theorem HasWithdrawn.concat (h : HasWithdrawn i m es) : HasWithdrawn i m (es ++ [e]) := by
  obtain ⟨es₁, e₁, es₂, rfl, he₁, hfound⟩ := h
  exact ⟨es₁, e₁, es₂ ++ [e], by simp, he₁, hfound⟩

end

/-! ## What phases stand for -/

namespace Phase

/-- The monitors for which a cycle has still to submit a job. -/
def pending : Phase → List Monitor
  | rounds _ due => due
  | advancing _ rest _ _ => rest
  | submitting (.trigger _ rest _) x _ => x.monitor :: rest
  | accepted (.trigger _ rest _) _ _ _ | stamped (.trigger _ rest _) _ _ _ _
  | refused (.trigger _ rest _) _ _ _ => rest
  | _ => []

/-- Only a cycle under the lock has jobs to submit. -/
theorem holdsLock_of_pending {φ : Phase} {m : Monitor} (h : m ∈ φ.pending) : φ.HoldsLock := by
  cases φ with
  | rounds | advancing => trivial
  | submitting k | accepted k | stamped k | refused k =>
    cases k with
    | trigger => trivial
    | initial | rerun => exact absurd h List.not_mem_nil
  | _ => exact absurd h List.not_mem_nil

/-- The monitor that a task has found and is about to change. -/
def found : Phase → Option Monitor
  | loaded m | poised m _ | listed m _ => some m
  | _ => none

/-- The monitor that a task has taken off its schedule. -/
def withdrawn : Phase → Option Monitor
  | stopped m | cleaning m _ => some m
  | _ => none

/-- The job of which a cycle has been told, and what it has been told. -/
def heard : Phase → Option (JobRef × Json)
  | told entry report _ => some (.run entry.org entry.run.jobName, report)
  | _ => none

/-- What has happened when a task is in a phase. -/
structure Recalls (i : Nat) (es : List Event) (φ : Phase) : Prop where
  listed : ∀ m ∈ φ.pending, HasListed i m es
  found : ∀ m ∈ φ.found, HasFound i m es
  withdrawn : ∀ m ∈ φ.withdrawn, HasWithdrawn i m es
  heard : ∀ x ∈ φ.heard, HasHeard i x.1 x.2 es

/-- What has happened stays so. -/
theorem Recalls.concat {i : Nat} {es : List Event} {φ : Phase} (h : φ.Recalls i es) (e : Event) :
    φ.Recalls i (es ++ [e]) where
  listed := fun m hm => (h.listed m hm).concat
  found := fun m hm => (h.found m hm).concat
  withdrawn := fun m hm => (h.withdrawn m hm).concat
  heard := fun x hx => (h.heard x hx).concat

/-- An idle task stands for nothing. -/
theorem recalls_idle (i : Nat) (es : List Event) : idle.Recalls i es where
  listed := fun _ hm => absurd hm List.not_mem_nil
  found := fun _ hm => (by cases hm)
  withdrawn := fun _ hm => (by cases hm)
  heard := fun _ hx => (by cases hx)

end Phase

namespace Passage

variable {a : Activity} {φ φ' : Phase} {c : Call} {answer : c.Answer} {w w' : Commons} {i : Nat}
  {m : Monitor}

/-- Jobs to be submitted were to be submitted before, or the call has just told that their monitors
are due. -/
theorem pending (h : Passage a φ c answer φ') (hw : w.Answers i c answer w')
    (hm : m ∈ φ'.pending) :
    m ∈ φ.pending ∨ (HasListed i m [.call i a c answer] ∧ m ∈ w.store.monitors ∧
      m.nextRun.isSome = true) := by
  cases h with
  | snapshot =>
    obtain ⟨hstored, hdue⟩ := hw.mem_of_dueMonitors hm
    refine .inr ⟨⟨_, _, _, .head _, hm⟩, hstored, ?_⟩
    rw [Monitor.isDue, Bool.and_eq_true] at hdue
    exact Option.isSome_of_any hdue.2
  | aim => exact .inl (List.mem_append_right _ hm)
  | @submit _ k | @reject _ k | @stamp _ k | @record _ k | @refuse _ k | @compensate _ k =>
    cases k with
    | trigger => first | exact .inl (.tail _ hm) | exact .inl hm
    | initial | rerun => exact absurd hm List.not_mem_nil
  | _ => first | exact .inl hm | exact absurd hm List.not_mem_nil

/-- A monitor that a task has found was found before, or just now. -/
theorem found (h : Passage a φ c answer φ') (hm : m ∈ φ'.found) :
    m ∈ φ.found ∨ HasFound i m [.call i a c answer] := by
  cases h with
  | load =>
    cases hm
    exact .inr ⟨_, .head _⟩
  | @submit _ k | @reject _ k | @stamp _ k | @record _ k | @refuse _ k | @compensate _ k =>
    cases k <;> cases hm
  | _ => first | exact .inl hm | cases hm

/-- A monitor that a task has taken off its schedule was taken off before, or just now and after it
had been found. -/
theorem withdrawn (h : Passage a φ c answer φ') (hw : w.Answers i c answer w')
    (hm : m ∈ φ'.withdrawn) :
    m ∈ φ.withdrawn ∨ (m ∈ φ.found ∧ (Event.call i a c answer).Withdraws i m.id) := by
  cases h with
  | stop =>
    cases hm
    exact .inr ⟨rfl, .stop _ _⟩
  | remove =>
    cases hm
    obtain rfl := hw.1
    exact .inr ⟨rfl, .delete _ _⟩
  | @submit _ k | @reject _ k | @stamp _ k | @record _ k | @refuse _ k | @compensate _ k =>
    cases k <;> cases hm
  | _ => exact .inl hm

/-- What a cycle has been told it was told before, or just now. -/
theorem heard {x : JobRef × Json} (h : Passage a φ c answer φ') (hx : x ∈ φ'.heard) :
    x ∈ φ.heard ∨ HasHeard i x.1 x.2 [.call i a c answer] := by
  cases h with
  | consult =>
    cases hx
    exact .inr ⟨_, .head _⟩
  | @submit _ k | @reject _ k | @stamp _ k | @record _ k | @refuse _ k | @compensate _ k =>
    cases k <;> cases hx
  | _ => first | exact .inl hx | cases hx

/-- After a passage the new phase stands for what has happened, if the old one did. -/
theorem recalls {es : List Event} (h : Passage a φ c answer φ') (hw : w.Answers i c answer w')
    (hφ : φ.Recalls i es) : φ'.Recalls i (es ++ [.call i a c answer]) where
  listed := by
    intro m hm
    rcases h.pending hw hm with hold | ⟨⟨template, now, due, hlisted, hmem⟩, -⟩
    · exact (hφ.listed m hold).concat
    · exact ⟨template, now, due, List.mem_append_right _ hlisted, hmem⟩
  found := by
    intro m hm
    rcases h.found hm with hold | ⟨a', ha'⟩
    · exact (hφ.found m hold).concat
    · exact ⟨a', List.mem_append_right _ ha'⟩
  withdrawn := by
    intro m hm
    rcases h.withdrawn hw hm with hold | ⟨hfound, hwithdraws⟩
    · exact (hφ.withdrawn m hold).concat
    · exact ⟨es, _, [], rfl, hwithdraws, hφ.found m hfound⟩
  heard := by
    intro x hx
    rcases h.heard (i := i) hx with hold | ⟨template, hheard⟩
    · exact (hφ.heard x hold).concat
    · exact ⟨template, List.mem_append_right _ hheard⟩

/-- No monitor is twice among those to be submitted. -/
theorem pending_nodup (h : Passage a φ c answer φ') (hw : w.Answers i c answer w')
    (hstore : (w.store.monitors.map Monitor.id).Nodup) (hφ : (φ.pending.map Monitor.id).Nodup) :
    (φ'.pending.map Monitor.id).Nodup := by
  cases h with
  | snapshot => exact hw.nodup_of_dueMonitors hstore
  | aim =>
    exact hφ.sublist ((List.sublist_append_right _ _).map _)
  | @submit _ k | @reject _ k | @stamp _ k | @record _ k | @refuse _ k | @compensate _ k =>
    cases k with
    | trigger => first | exact hφ | exact hφ.of_cons
    | initial | rerun => exact List.nodup_nil
  | _ => first | exact hφ | exact List.nodup_nil

end Passage

/-! ## Every history -/

namespace Scene

/-- Every phase stands for what has happened. -/
theorem History.recalls {w : Commons} {s : Scene} {es : List Event}
    (h : (ofCommons w).History es s) : ∀ i, (s.phase i).Recalls i es := by
  induction h with
  | nil => exact fun i => Phase.recalls_idle i []
  | @snoc es e s₁ s₂ _ hstep ih =>
    intro i
    rcases hstep.call_or_rests with ⟨k, a, c, answer, rfl⟩ | ⟨-, hrests⟩
    · cases hstep with
      | call hpassage hw =>
        refine Phase.to_update (·.Recalls i _) ?_ fun _ => (ih i).concat _
        rintro rfl
        exact hpassage.recalls hw (ih i)
    · exact hrests.to_phase (P := (·.Recalls i _)) (Phase.recalls_idle i _) ((ih i).concat _)

/-- What holds of every scene that begins at a fresh site. -/
structure Orderly (s : Scene) : Prop where
  identities : ∃ home, Identities home s
  exclusive : s.Exclusive
  pending : ∀ i, ((s.phase i).pending.map Monitor.id).Nodup

theorem Orderly.step {s s' : Scene} {e : Event} (h : s.Orderly) (hstep : Step s e s') :
    s'.Orderly := by
  obtain ⟨home, hid⟩ := h.identities
  obtain ⟨home', hid', -⟩ := hid.step hstep
  refine ⟨⟨home', hid'⟩, h.exclusive.step hstep, fun i => ?_⟩
  rcases hstep.call_or_rests with ⟨k, a, c, answer, rfl⟩ | ⟨-, hrests⟩
  · cases hstep with
    | call hpassage hw =>
      refine Phase.to_update (fun φ => (φ.pending.map Monitor.id).Nodup) ?_ fun _ => h.pending i
      rintro rfl
      exact hpassage.pending_nodup hw hid.nodup (h.pending i)
  · exact hrests.to_phase (P := fun φ => (φ.pending.map Monitor.id).Nodup) List.nodup_nil
      (h.pending i)

theorem Orderly.start {s : Site} (h : s.IsFresh) : (ofCommons s.commons).Orderly where
  identities := Identities.start h
  exclusive := .start _
  pending := fun _ => List.nodup_nil

end Scene

end TraceWatch
