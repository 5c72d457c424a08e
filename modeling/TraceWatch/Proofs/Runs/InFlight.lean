import TraceWatch.Proofs.Monitors.Presence

/-!
# Runs that a cycle looks after

Under the lock a cycle lists the runs that have not ended and goes through the list, without looking
at the store again before it writes. That is safe since nobody else writes how far a run has come: a
run to which the cycle has not come yet is stored as it was listed, or it is gone (`Scene.Backs`).
The invariant is `Scene.Tended`.
-/

namespace TraceWatch

/-! ## What becomes of a stored run -/

/-- With the event somebody stores how far the run has come, which makes it the other. -/
def Event.Restates (now : Timestamp) (r r' : Run) (e : Event) : Prop :=
  ∃ k a status message answer,
    e = .call k a (.store (.updateStatus r.id status message)) answer ∧
      r' = { r with status, errorMessage := message, updatedAt := now }

/-- A run that is stored under a spent identifier was stored before, and how far it has come may
just have been stored. -/
theorem Scene.Spent.exists_run {s s' : Scene} {e : Event} {r' : Run} (h : s.Spent r'.id)
    (hstep : s.Step e s') (hr' : r' ∈ s'.commons.store.runs) :
    ∃ r ∈ s.commons.store.runs, r' = r ∨ e.Restates s.commons.clock r r' := by
  rcases hstep.call_or_rests with ⟨k, a, c, answer, rfl⟩ | ⟨-, hrests⟩
  · cases hstep with
    | @call w w' g _ _ _ _ φ hpassage hw =>
      rcases hw.mem_runs hr' with rfl | ⟨r, hr, rfl | ⟨d, rfl, hobserves⟩⟩
      · obtain ⟨_, x, id, job, now, hstamped, rfl, -⟩ := hpassage.createRun
        have hdrawn : (g k).drawn = some id := by rw [hstamped]; rfl
        exact absurd hdrawn (h.undrawn k)
      · exact ⟨r', hr, .inl rfl⟩
      · refine ⟨r, hr, ?_⟩
        cases hobserves with
        | same => exact .inl rfl
        | status => exact .inr ⟨_, _, _, _, _, rfl, rfl⟩
  · exact ⟨r', hrests.store ▸ hr', .inl rfl⟩

/-! ## What a cycle has listed -/

/-- The runs that a cycle has still to look after. -/
def Phase.entries : Phase → List InFlightRun
  | tending entries => entries
  | told entry _ rest => entry :: rest
  | _ => []

/-- Only a cycle under the lock looks after runs. -/
theorem Phase.holdsLock_of_entries {φ : Phase} {entry : InFlightRun} (h : entry ∈ φ.entries) :
    φ.HoldsLock := by
  cases φ with
  | tending | told => trivial
  | _ => exact absurd h List.not_mem_nil

section

variable {a : Activity} {φ φ' : Phase} {c : Call} {answer : c.Answer} {w w' : Commons} {i : Nat}
  {entry : InFlightRun}

/-- The runs that a cycle looks after it looked after before, or they are stored and have not
ended. -/
theorem Passage.entries (h : Passage a φ c answer φ') (hw : w.Answers i c answer w')
    (hentry : entry ∈ φ'.entries) :
    entry ∈ φ.entries ∨ (entry.run ∈ w.store.runs ∧ entry.run.status.isTerminal = false ∧
      ∃ m ∈ w.store.monitors, m.id = entry.run.monitorId ∧ m.org = entry.org) := by
  cases h with
  | survey => exact .inr (hw.mem_of_inFlight hentry)
  | consult => exact .inl (List.mem_append_right _ hentry)
  | tend => exact .inl (.tail _ hentry)
  | @reject _ k | @record _ k | @compensate _ k =>
    cases k <;> exact absurd hentry List.not_mem_nil
  | _ => first | exact .inl hentry | exact absurd hentry List.not_mem_nil

/-- A cycle looks after no run twice. -/
theorem Passage.entries_nodup (h : Passage a φ c answer φ') (hw : w.Answers i c answer w')
    (hstore : (w.store.runs.map Run.id).Nodup)
    (hφ : (φ.entries.map fun entry => entry.run.id).Nodup) :
    (φ'.entries.map fun entry => entry.run.id).Nodup := by
  cases h with
  | survey => exact hw.nodup_of_inFlight hstore
  | consult => exact hφ.sublist ((List.sublist_append_right _ _).map _)
  | tend => exact hφ.of_cons
  | @reject _ k | @record _ k | @compensate _ k => cases k <;> exact List.nodup_nil
  | _ => first | exact hφ | exact List.nodup_nil

end

namespace Scene

/-- What a cycle has listed is still so: the run had not ended, and it is stored as it was or gone;
its monitor belongs to the organization. -/
structure Backs (s : Scene) (entry : InFlightRun) : Prop where
  unfinished : entry.run.status.isTerminal = false
  spent : s.Spent entry.run.id
  stored : ∀ r ∈ s.commons.store.runs, r.id = entry.run.id → r = entry.run
  owner : ∃ m : Monitor, m.id = entry.run.monitorId ∧ m.org = entry.org ∧ s.Fixes m.origin

/-- Every cycle goes by what is still so, and looks after no run twice. -/
structure Tended (s : Scene) : Prop where
  ids : (s.commons.store.runs.map Run.id).Nodup
  nodup : ∀ k, ((s.phase k).entries.map fun entry => entry.run.id).Nodup
  backed : ∀ k, ∀ entry ∈ (s.phase k).entries, s.Backs entry

variable {s s' : Scene} {e : Event} {entry : InFlightRun}

/-- What a cycle lists is so. -/
theorem Reachable.backs (hs : s.Reachable) (hids : (s.commons.store.runs.map Run.id).Nodup)
    (hstored : entry.run ∈ s.commons.store.runs)
    (hunfinished : entry.run.status.isTerminal = false)
    (howner : ∃ m ∈ s.commons.store.monitors, m.id = entry.run.monitorId ∧ m.org = entry.org) :
    s.Backs entry := by
  obtain ⟨m, hm, hid, horg⟩ := howner
  refine ⟨hunfinished, hs.spent_of_run ⟨_, hstored, rfl⟩, fun r hr heq => ?_,
    m, hid, horg, hs.fixes m (.inl hm)⟩
  exact List.inj_on_of_nodup_map hids hr hstored heq

/-- It stays so until somebody stores how far the run has come. -/
theorem Backs.step (h : s.Backs entry) (hstep : s.Step e s')
    (he : ∀ k a status message answer,
      e ≠ .call k a (.store (.updateStatus entry.run.id status message)) answer) :
    s'.Backs entry := by
  obtain ⟨m, hid, horg, hfixes⟩ := h.owner
  refine ⟨h.unfinished, h.spent.step hstep, fun r' hr' heq => ?_, m, hid, horg, hfixes.step hstep⟩
  have hspent : s.Spent r'.id := heq ▸ h.spent
  obtain ⟨r, hr, rfl | ⟨k, a, status, message, answer, rfl, rfl⟩⟩ := hspent.exists_run hstep hr'
  · exact h.stored r' hr heq
  · refine absurd ?_ (he k a status message answer)
    rw [show r.id = entry.run.id from heq]

namespace Tended

/-- Nobody has just stored how far a run has come that a cycle has still to look after. -/
theorem not_restated (h : s.Tended) (hexclusive : s.Exclusive) (hstep : s.Step e s') {j : Nat}
    (hentry : entry ∈ (s'.phase j).entries) (k : Nat) (a : Activity) (status : RunStatus)
    (message : Option String) (answer : Except StoreError Unit) :
    e ≠ .call k a (.store (.updateStatus entry.run.id status message)) answer := by
  rintro rfl
  cases hstep with
  | @call w w' g _ _ _ _ φ hpassage hw =>
    obtain ⟨_, first, report, rest, -, hk, rfl, hid, -, -⟩ := hpassage.updateStatus
    rcases Phase.of_update (entry ∈ ·.entries) hentry with ⟨-, hrest⟩ | ⟨hjk, hentry⟩
    · -- the cycle has no other entry for the run it has come to
      have hnodup : ((g k).entries.map fun entry => entry.run.id).Nodup := h.nodup k
      rw [hk] at hnodup
      exact (List.nodup_cons.1 hnodup).1 (List.mem_map.2 ⟨entry, hrest, hid⟩)
    · -- and nobody else is under the lock
      refine hjk (hexclusive.eq (i := j) (j := k) (Phase.holdsLock_of_entries hentry) ?_)
      simp only [hk, Phase.HoldsLock]

theorem step (h : s.Tended) (hs : s.Reachable) (hstep : s.Step e s') : s'.Tended := by
  rcases hstep.call_or_rests with ⟨k, a, c, answer, rfl⟩ | ⟨-, hrests⟩
  · have hcall := hstep
    cases hstep with
    | @call w w' g _ _ _ _ φ hpassage hw =>
      refine ⟨hw.nodup_runIds h.ids, fun j => ?_, fun j entry hentry => ?_⟩
      · refine Phase.to_update (fun φ => (φ.entries.map fun entry => entry.run.id).Nodup)
          (fun _ => ?_) fun _ => h.nodup j
        exact hpassage.entries_nodup hw h.ids (h.nodup k)
      · refine Backs.step ?_ hcall (h.not_restated hs.exclusive hcall hentry)
        rcases Phase.of_update (entry ∈ ·.entries) hentry with ⟨-, hφ⟩ | ⟨-, hold⟩
        · rcases hpassage.entries hw hφ with hold | ⟨hstored, hunfinished, howner⟩
          · exact h.backed k entry hold
          · exact hs.backs h.ids hstored hunfinished howner
        · exact h.backed j entry hold
  · refine ⟨hrests.store ▸ h.ids, fun j => ?_, fun j entry hentry => ?_⟩
    · exact hrests.to_phase (P := fun φ => (φ.entries.map fun entry => entry.run.id).Nodup)
        List.nodup_nil (h.nodup j)
    · refine Backs.step (h.backed j entry ?_) hstep (h.not_restated hs.exclusive hstep hentry)
      exact hrests.of_phase (P := (entry ∈ ·.entries)) List.not_mem_nil hentry

end Tended

/-- In every reachable scene the cycles go by what is still so. -/
theorem Reachable.tended (hs : s.Reachable) : s.Tended := by
  refine hs.invariant (fun w hstore _ => ⟨?_, fun _ => List.nodup_nil, fun _ _ => nofun⟩)
    fun hs ih hstep => ih.step hs hstep
  show (w.store.runs.map Run.id).Nodup
  rw [hstore]
  exact List.nodup_nil

end Scene

end TraceWatch
