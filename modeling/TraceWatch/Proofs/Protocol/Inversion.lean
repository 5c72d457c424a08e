import TraceWatch.Proofs.Protocol.Phase

/-!
# Where changes come from

Each call that changes something is made in one phase, or in two, and its arguments are those of the
phase. The lemmas of this module read a passage backwards: from a call to the phase it was made in
and to the phase it leads to.
-/

namespace TraceWatch.Passage

variable {a : Activity} {φ φ' : Phase} {id : Uuid}

/-! ## The lock -/

/-- A task that gives the lock back is idle afterwards. -/
theorem releaseLock {answer : Except StoreError Unit} (h : Passage a φ .releaseLock answer φ') :
    φ' = .idle := by
  cases h with
  | read hread => cases hread
  | unlock | leave => rfl

/-- A task that gets the lock is in a cycle; one that does not stays idle. -/
theorem acquireLock {answer : Except StoreError Bool} (h : Passage a φ .acquireLock answer φ') :
    φ = .idle ∧ ((answer = .ok true ∧ φ' = .locked) ∨ φ' = .idle) := by
  cases h with
  | read hread => cases hread
  | busy => exact ⟨rfl, .inr rfl⟩
  | lock => exact ⟨rfl, .inl ⟨rfl, rfl⟩⟩

/-! ## Monitors -/

/-- A monitor is drafted by a creation that has read the clock and whose request has passed its
check. -/
theorem drafted {c : Call} {answer : c.Answer} {m : Monitor}
    (h : Passage a φ c answer (.drafted m)) :
    ∃ template org request now id agentId environmentId, a = .create template org request ∧
      φ = .dated now ∧ request.truncate.check now = .ok () ∧
        m = request.truncate.toMonitor id org agentId environmentId now := by
  generalize hφ' : Phase.drafted m = φ' at h
  cases h with
  | draft hcheck =>
    cases hφ'
    exact ⟨_, _, _, _, _, _, _, rfl, rfl, hcheck, rfl⟩
  | read _ hread =>
    subst hφ'
    exact False.elim hread
  | waste hread =>
    subst hφ'
    rcases hread with hread | ⟨_, _, hchosen⟩
    · exact False.elim hread
    · cases hchosen
  | @reject _ k | @record _ k | @compensate _ k => cases k <;> cases hφ'
  | _ => cases hφ'

/-- A monitor is put into the store by the creation that has drafted it. -/
theorem createMonitor {m : Monitor} {answer : Except StoreError Unit}
    (h : Passage a φ (.store (.createMonitor m)) answer φ') :
    φ = .drafted m ∧ (φ' = .created m ∨ φ' = .idle) := by
  cases h with
  | read hread => cases hread
  | create => exact ⟨rfl, .inl rfl⟩
  | taken => exact ⟨rfl, .inr rfl⟩

/-- Only creations put monitors into the store. -/
theorem createMonitor_activity {m : Monitor} {answer : Except StoreError Unit}
    (h : Passage a φ (.store (.createMonitor m)) answer φ') :
    ∃ template org request, a = .create template org request := by
  cases h with
  | read hread => cases hread
  | create | taken => exact ⟨_, _, _, rfl⟩

/-- A definition is overwritten by an edit that has passed its check. -/
theorem updateDefinition {d : Monitor} {answer : Except StoreError Unit}
    (h : Passage a φ (.store (.updateDefinition d)) answer φ') :
    ∃ m now edit, φ = .poised m now ∧ a = .update m.org m.name edit ∧ edit.check m = .ok () ∧
      d = { edit.apply m with updatedAt := now } := by
  cases h with
  | read hread => cases hread
  | edit hcheck => exact ⟨_, _, _, rfl, rfl, hcheck, rfl⟩

/-- A monitor is taken off its schedule by an activity that stops it. -/
theorem suspend {answer : Except StoreError Bool}
    (h : Passage a φ (.store (.suspend id)) answer φ') :
    ∃ m now, φ = .poised m now ∧ id = m.id ∧ a = .stop m.org m.name := by
  cases h with
  | read hread => cases hread
  | stop | lateStop => exact ⟨_, _, rfl, rfl, rfl⟩

/-- A monitor is put back on its schedule by an activity that starts it. -/
theorem resume {next : Timestamp} {answer : Except StoreError Bool}
    (h : Passage a φ (.store (.resume id next)) answer φ') :
    ∃ m, φ = .poised m next ∧ id = m.id ∧ a = .start m.org m.name := by
  cases h with
  | read hread => cases hread
  | start | lateStart => exact ⟨_, rfl, rfl, rfl⟩

/-- A schedule is moved on by a cycle that has recorded a run. -/
theorem advance_inv {next : Timestamp} {answer : Except StoreError Bool}
    (h : Passage a φ (.store (.advance id next)) answer φ') :
    ∃ now rest m, φ = .advancing now rest m next ∧ id = m.id ∧ φ' = .rounds now rest := by
  cases h with
  | read hread => cases hread
  | advance => exact ⟨_, _, _, rfl, rfl, rfl⟩

/-- A monitor is removed by a deletion that has listed its runs, or, if it has a window, by its own
creation. -/
theorem deleteMonitor {answer : Except StoreError Unit}
    (h : Passage a φ (.store (.deleteMonitor id)) answer φ') :
    (∃ m, φ = .created m ∧ id = m.id ∧ φ' = .idle ∧ m.traceStart.isSome = true) ∨
      ∃ m runs, φ = .listed m runs ∧ id = m.id ∧ a = .delete m.org m.name ∧
        φ' = .cleaning m runs := by
  cases h with
  | read hread => cases hread
  | rollBack hstart => exact .inl ⟨_, rfl, rfl, rfl, Option.isSome_of_mem hstart⟩
  | remove => exact .inr ⟨_, _, rfl, rfl, rfl, rfl⟩

/-! ## Runs and jobs -/

/-- A run is put into the store by the execution whose job has been accepted. -/
theorem createRun {r : Run} {answer : Except StoreError Unit}
    (h : Passage a φ (.store (.createRun r)) answer φ') :
    ∃ k x id job now, φ = .stamped k x id job now ∧ r = x.record id now ∧ k.Suits a ∧
      ((answer = .ok () ∧ φ' = k.afterRecord x) ∨
        ∃ e, answer = .error e ∧ φ' = .refused k x id job) := by
  cases h with
  | read hread => cases hread
  | record hk => exact ⟨_, _, _, _, _, rfl, rfl, hk, .inl ⟨rfl, rfl⟩⟩
  | refuse hk => exact ⟨_, _, _, _, _, rfl, rfl, hk, .inr ⟨_, rfl, rfl⟩⟩

/-- How far a run has come is stored by a cycle that has been told so. -/
theorem updateStatus {status : RunStatus} {message : Option String}
    {answer : Except StoreError Unit}
    (h : Passage a φ (.store (.updateStatus id status message)) answer φ') :
    ∃ template entry report rest, a = .cycle template ∧ φ = .told entry report rest ∧
      φ' = .tending rest ∧ id = entry.run.id ∧ status = Report.runStatus report ∧
      message = Report.message report := by
  cases h with
  | read hread => cases hread
  | tend => exact ⟨_, _, _, _, rfl, rfl, rfl, rfl, rfl, rfl⟩

/-- A job is submitted by an execution that has drawn its identifier. -/
theorem submit_inv {spec : JobSpec} {answer : Except PlaneError JobRef}
    (h : Passage a φ (.plane (.submit spec)) answer φ') :
    ∃ k x id, φ = .submitting k x id ∧ spec = x.spec id ∧ k.Suits a ∧
      ((∃ job, answer = .ok job ∧ φ' = .accepted k x id job) ∨
        ∃ e, answer = .error e ∧ φ' = k.afterFailure x) := by
  cases h with
  | read hread => cases hread
  | submit hk => exact ⟨_, _, _, rfl, rfl, hk, .inl ⟨_, rfl, rfl⟩⟩
  | reject hk => exact ⟨_, _, _, rfl, rfl, hk, .inr ⟨_, rfl, rfl⟩⟩

/-- A job is deleted by the execution whose record has been refused, or by a deletion that has
listed a run of it. -/
theorem deleteJob {job : JobRef} {answer : Except PlaneError Unit}
    (h : Passage a φ (.plane (.delete job)) answer φ') :
    (∃ k x id, φ = .refused k x id job) ∨
      ∃ m r rest, φ = .cleaning m (r :: rest) ∧ job = .run m.org r.jobName := by
  cases h with
  | read hread => cases hread
  | clean => exact .inr ⟨_, _, _, rfl, rfl⟩
  | compensate => exact .inl ⟨_, _, _, rfl⟩

end TraceWatch.Passage
