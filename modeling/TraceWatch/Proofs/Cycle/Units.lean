import TraceWatch.Proofs.Cycle.Round

/-!
# Units of work

What a cycle does under the lock is one unit of work after the other: a trigger for each monitor
that is due, and when all of these have had their turn, a reconciliation for each run that is in
flight then. Before each unit the cycle looks whether it has been told to stop. This module takes
the looking and the working apart. `WorkUnit.carryOut` works and never looks, and
`Service.firstUnits` is the work of a cycle cut down to its first units;
`WorkUnit.carryOutUntilTold` looks as well, and the loops of a cycle are that
(`Service.triggerAll_eq`, `Service.reconcileAll_eq`).
-/

namespace TraceWatch

open Program

/-! ## One unit -/

instance : Add Tally where
  add a b := ⟨a.triggered + b.triggered, a.failed + b.failed, a.reconciled + b.reconciled⟩

namespace Tally

@[simp] theorem add_triggered (a b : Tally) : (a + b).triggered = a.triggered + b.triggered := rfl

@[simp] theorem add_failed (a b : Tally) : (a + b).failed = a.failed + b.failed := rfl

@[simp] theorem add_reconciled (a b : Tally) : (a + b).reconciled = a.reconciled + b.reconciled :=
  rfl

/-- It counts one trigger, which has succeeded or failed. -/
def IsTrigger (tally : Tally) : Prop := tally.triggered + tally.failed = 1 ∧ tally.reconciled = 0

/-- It counts one reconciliation, or nothing. -/
def IsReconciliation (tally : Tally) : Prop :=
  tally.triggered = 0 ∧ tally.failed = 0 ∧ tally.reconciled ≤ 1

end Tally

/-- A unit of work of a cycle. -/
inductive WorkUnit where
  | trigger (m : Monitor)
  | reconcile (entry : InFlightRun)

/-- What a unit does, in a cycle that starts at the instant, and how it counts. -/
def WorkUnit.program (template : String) (now : Timestamp) : WorkUnit → Program Tally
  | trigger m => (Service.trigger template m now).run.bind fun
    | .ok _ => .done ⟨1, 0, 0⟩
    | .error _ => .call (.count .triggerFailed) fun _ => .done ⟨0, 1, 0⟩
  | reconcile entry => (Service.reconcile entry).run.bind fun
    | .ok true => .done ⟨0, 0, 1⟩
    | _ => .done ⟨0, 0, 0⟩

/-- The call does not ask whether to stop. -/
def Call.IsWork (c : Call) : Prop := c ≠ .cancelled

/-- The call does not ask whether to stop, and has to do with no run that there is: it does not ask
how its job is getting on, and does not move its status. -/
def Call.IsTriggering (c : Call) : Prop :=
  c ≠ .cancelled ∧ (∀ job, c ≠ .plane (.resource job)) ∧
    ∀ id status message, c ≠ .store (.updateStatus id status message)

/-- An execution does not look whether to stop, and has to do with no run that there is. -/
theorem Assignment.operation_keeps (x : Assignment) :
    x.operation.run.Keeps Call.IsTriggering fun _ => True := by
  rw [operation_run]
  refine ⟨⟨nofun, nofun, nofun⟩, fun id => ?_⟩
  split
  · trivial
  · refine ⟨⟨nofun, nofun, nofun⟩, fun submitted => ?_⟩
    cases submitted with
    | error e => trivial
    | ok job =>
      refine ⟨⟨nofun, nofun, nofun⟩, fun now => ⟨⟨nofun, nofun, nofun⟩, fun recorded => ?_⟩⟩
      cases recorded with
      | error e => exact ⟨⟨nofun, nofun, nofun⟩, fun _ => trivial⟩
      | ok => exact ⟨⟨nofun, nofun, nofun⟩, fun _ => trivial⟩

namespace WorkUnit

variable {template : String} {now : Timestamp}

/-- A trigger does not look whether to stop, has to do with no run that there is, and counts
once. -/
theorem trigger_keeps (m : Monitor) :
    ((trigger m).program template now).Keeps Call.IsTriggering Tally.IsTrigger := by
  have hcount : ∀ r : Except MonitorError Run, Keeps Call.IsTriggering Tally.IsTrigger
      (match r with
        | .ok _ => .done ⟨1, 0, 0⟩
        | .error _ => .call (.count .triggerFailed) fun _ => .done ⟨0, 1, 0⟩) := by
    rintro (e | r)
    · exact ⟨⟨nofun, nofun, nofun⟩, fun _ => ⟨rfl, rfl⟩⟩
    · exact ⟨rfl, rfl⟩
  refine Keeps.bind (Q := fun _ => True) (fun r _ => hcount r) ?_
  rw [Service.trigger_run]
  cases Plan.make m.nextRun m.interval now with
  | error e => trivial
  | ok planned =>
    cases planned with
    | none => trivial
    | some plan =>
      refine (Assignment.operation_keeps _).bind fun r _ => ?_
      cases r with
      | error e => trivial
      | ok r => exact ⟨⟨nofun, nofun, nofun⟩, fun _ => ⟨⟨nofun, nofun, nofun⟩, fun _ => trivial⟩⟩

/-- A reconciliation does not look whether to stop, and counts once if at all. -/
theorem reconcile_keeps (entry : InFlightRun) :
    ((reconcile entry).program template now).Keeps Call.IsWork Tally.IsReconciliation := by
  refine Keeps.bind (Q := fun _ => True) (fun r _ => ?_) ?_
  · rcases r with e | _ | _
    · exact ⟨rfl, rfl, Nat.zero_le _⟩
    · exact ⟨rfl, rfl, Nat.zero_le _⟩
    · exact ⟨rfl, rfl, Nat.le_refl _⟩
  · rw [Service.reconcile_run]
    refine ⟨nofun, fun reply => ?_⟩
    cases reply with
    | error e => trivial
    | ok report =>
      dsimp only
      split
      · trivial
      · refine ⟨nofun, fun clock => ⟨nofun, fun stored => ?_⟩⟩
        cases stored with
        | error e => trivial
        | ok => exact ⟨nofun, fun _ => trivial⟩

/-- No unit looks whether to stop. -/
theorem program_keeps (u : WorkUnit) :
    (u.program template now).Keeps Call.IsWork fun _ => True := by
  cases u with
  | trigger m => exact (trigger_keeps m).mono (fun _ h => h.1) fun _ _ => trivial
  | reconcile entry => exact (reconcile_keeps entry).mono (fun _ h => h) fun _ _ => trivial

/-! ## One unit after the other -/

/-- The units are carried out one after the other and counted. -/
def carryOut (template : String) (now : Timestamp) : List WorkUnit → Tally → Program Tally
  | [], tally => .done tally
  | u :: rest, tally => (u.program template now).bind fun counted =>
    carryOut template now rest (tally + counted)

/-- They are, until one is told to stop. The second component tells whether all of them had their
turn. -/
def carryOutUntilTold (template : String) (now : Timestamp) :
    List WorkUnit → Tally → Program (Tally × Bool)
  | [], tally => .done (tally, true)
  | u :: rest, tally => .call .cancelled fun
    | true => .done (tally, false)
    | false => (u.program template now).bind fun counted =>
      carryOutUntilTold template now rest (tally + counted)

theorem carryOut_append (us us' : List WorkUnit) (tally : Tally) :
    carryOut template now (us ++ us') tally =
      (carryOut template now us tally).bind (carryOut template now us') := by
  induction us generalizing tally with
  | nil => rfl
  | cons u us ih =>
    rw [List.cons_append, carryOut, carryOut, bind_assoc]
    exact Program.bind_congr fun counted => ih _

/-- Triggers count as many as they are. -/
theorem carryOut_trigger_keeps (ms : List Monitor) (tally : Tally) :
    (carryOut template now (ms.map trigger) tally).Keeps Call.IsTriggering fun tally' =>
      tally'.triggered + tally'.failed = tally.triggered + tally.failed + ms.length ∧
        tally'.reconciled = tally.reconciled := by
  induction ms generalizing tally with
  | nil => exact ⟨rfl, rfl⟩
  | cons m ms ih =>
    refine (trigger_keeps m).bind fun counted hcounted => (ih _).mono (fun _ h => h) ?_
    rintro tally' ⟨htriggers, hreconciled⟩
    obtain ⟨hone, hnone⟩ := hcounted
    simp only [Tally.add_triggered, Tally.add_failed, Tally.add_reconciled, List.length_cons] at *
    omega

/-- Reconciliations count no triggers, and no more than they are. -/
theorem carryOut_reconcile_keeps (entries : List InFlightRun) (tally : Tally) :
    (carryOut template now (entries.map reconcile) tally).Keeps Call.IsWork fun tally' =>
      tally'.triggered = tally.triggered ∧ tally'.failed = tally.failed ∧
        tally'.reconciled ≤ tally.reconciled + entries.length := by
  induction entries generalizing tally with
  | nil => exact ⟨rfl, rfl, Nat.le_refl _⟩
  | cons entry entries ih =>
    refine (reconcile_keeps entry).bind fun counted hcounted => (ih _).mono (fun _ h => h) ?_
    rintro tally' ⟨htriggered, hfailed, hreconciled⟩
    obtain ⟨hnone, hnone', hone⟩ := hcounted
    simp only [Tally.add_triggered, Tally.add_failed, Tally.add_reconciled, List.length_cons] at *
    omega

end WorkUnit

/-! ## The loops of a cycle -/

namespace Service

open WorkUnit

variable {template : String} {now : Timestamp}

/-- The first loop of a cycle carries out triggers until it is told to stop. -/
theorem triggerAll_eq : ∀ (due : List Monitor) (tally : Tally),
    triggerAll template now due tally =
      carryOutUntilTold template now (due.map WorkUnit.trigger) tally
  | [], _ => rfl
  | m :: rest, tally => by
    rw [triggerAll_cons, List.map_cons, carryOutUntilTold, WorkUnit.program]
    refine call_congr fun stop => ?_
    cases stop with
    | true => rfl
    | false =>
      rw [bind_assoc]
      refine Program.bind_congr fun r => ?_
      cases r with
      | ok r => exact triggerAll_eq rest _
      | error e => exact call_congr fun _ => triggerAll_eq rest _

/-- The second loop of a cycle carries out reconciliations until it is told to stop. -/
theorem reconcileAll_eq (template : String) (now : Timestamp) :
    ∀ (entries : List InFlightRun) (tally : Tally),
    reconcileAll entries tally =
      (carryOutUntilTold template now (entries.map WorkUnit.reconcile) tally).bind fun out =>
        .done out.1
  | [], _ => rfl
  | entry :: rest, tally => by
    rw [reconcileAll_cons, List.map_cons, carryOutUntilTold, WorkUnit.program]
    refine call_congr fun stop => ?_
    cases stop with
    | true => rfl
    | false =>
      dsimp only
      rw [bind_assoc, bind_assoc]
      refine Program.bind_congr fun r => ?_
      rcases r with e | _ | _ <;> exact reconcileAll_eq template now rest _

/-- The units of a cycle for which these monitors are due, until it is told to stop. -/
def unitsUntilTold (template : String) (now : Timestamp) (due : List Monitor) :
    Program (Except MonitorError Tally) :=
  (carryOutUntilTold template now (due.map WorkUnit.trigger) ⟨0, 0, 0⟩).bind fun
    | (tally, false) => .done (.ok tally)
    | (tally, true) => .call (.store .inFlight) fun
      | .error e => .done (.error (.store e))
      | .ok entries =>
        (carryOutUntilTold template now (entries.map WorkUnit.reconcile) tally).bind fun out =>
          .done (.ok out.1)

/-- The work of a cycle that holds the lock is its units, until it is told to stop. -/
theorem lockedCycle_units (template : String) :
    (lockedCycle template).run =
      .call .now fun now => .call (.store (.dueMonitors now)) fun
        | .error e => .done (.error (.store e))
        | .ok due => unitsUntilTold template now due := by
  rw [lockedCycle_run]
  refine call_congr fun now => call_congr fun answer => ?_
  cases answer with
  | error e => rfl
  | ok due =>
    dsimp only
    rw [triggerAll_eq, unitsUntilTold]
    refine Program.bind_congr fun ⟨tally, finished⟩ => ?_
    cases finished with
    | false => rfl
    | true =>
      refine call_congr fun answer => ?_
      cases answer with
      | error e => rfl
      | ok entries =>
        dsimp only
        rw [reconcileAll_eq template now, bind_assoc]
        rfl

/-! ## The first units -/

/-- Of the units of a cycle for which these monitors are due, the first: triggers of as many of the
monitors, and if these are all of them, reconciliations of as many runs as are left. -/
def unitsOf (template : String) (now : Timestamp) (due : List Monitor) (k : Nat) :
    Operation Tally := do
  let tally ← (carryOut template now ((due.take k).map WorkUnit.trigger) ⟨0, 0, 0⟩ : Program _)
  if k < due.length then return tally
  let entries ← Operation.store .inFlight
  (carryOut template now ((entries.take (k - due.length)).map WorkUnit.reconcile) tally : Program _)

/-- The work of a cycle that holds the lock, cut down to its first units. -/
def firstUnits (template : String) (k : Nat) : Operation Tally := do
  let now ← Program.now
  let due ← Operation.store (.dueMonitors now)
  unitsOf template now due k

/-- A cycle that does its first units only. -/
def shortCycle (template : String) (k : Nat) : Program (Except MonitorError CycleOutcome) :=
  .call .acquireLock fun
    | .error e => .done (.error (.store e))
    | .ok false => .call (.count (.cycleEnded .skipped)) fun _ => .done (.ok .skipped)
    | .ok true => (firstUnits template k).run.bind closing

theorem firstUnits_run (template : String) (k : Nat) :
    (firstUnits template k).run =
      .call .now fun now => .call (.store (.dueMonitors now)) fun
        | .error e => .done (.error (.store e))
        | .ok due => (unitsOf template now due k).run := by
  refine call_congr fun now => call_congr fun answer => ?_
  cases answer <;> rfl

variable {due : List Monitor} {k : Nat}

/-- As long as there are more monitors, only monitors are triggered. -/
theorem unitsOf_run_of_lt (h : k < due.length) :
    (unitsOf template now due k).run =
      (carryOut template now ((due.take k).map WorkUnit.trigger) ⟨0, 0, 0⟩).bind fun tally =>
        .done (.ok tally) := by
  show ((carryOut template now _ ⟨0, 0, 0⟩).bind _).bind _ = _
  rw [bind_assoc]
  refine Program.bind_congr fun tally => ?_
  show (if k < due.length then _ else _ : Operation Tally).run = _
  rw [if_pos h]
  rfl

/-- After all monitors it is the turn of the runs. -/
theorem unitsOf_run_of_le (h : due.length ≤ k) :
    (unitsOf template now due k).run =
      (carryOut template now (due.map WorkUnit.trigger) ⟨0, 0, 0⟩).bind fun tally =>
        .call (.store .inFlight) fun
          | .error e => .done (.error (.store e))
          | .ok entries => (carryOut template now
            ((entries.take (k - due.length)).map WorkUnit.reconcile) tally).bind fun tally =>
              .done (.ok tally) := by
  show ((carryOut template now _ ⟨0, 0, 0⟩).bind _).bind _ = _
  rw [bind_assoc, List.take_of_length_le h]
  refine Program.bind_congr fun tally => ?_
  show (if k < due.length then _ else _ : Operation Tally).run = _
  rw [if_neg (Nat.not_lt.2 h)]
  refine call_congr fun answer => ?_
  cases answer <;> rfl

/-- The first units of a cycle that has more monitors count as many triggers. -/
theorem unitsOf_keeps_of_lt (h : k < due.length) :
    (unitsOf template now due k).run.Keeps Call.IsTriggering fun out => ∀ tally, out = .ok tally →
      tally.triggered + tally.failed = k ∧ tally.reconciled = 0 := by
  rw [unitsOf_run_of_lt h]
  refine (carryOut_trigger_keeps (due.take k) ⟨0, 0, 0⟩).bind fun tally hcounted => ?_
  rintro _ ⟨⟩
  rw [List.length_take_of_le (Nat.le_of_lt h)] at hcounted
  simpa using hcounted

/-- The first units of a cycle that are all its triggers and more count them, and of the
reconciliations no more than they are. -/
theorem unitsOf_keeps_of_le (h : due.length ≤ k) :
    (unitsOf template now due k).run.Keeps Call.IsWork fun out => ∀ tally, out = .ok tally →
      tally.triggered + tally.failed = due.length ∧ tally.reconciled ≤ k - due.length := by
  rw [unitsOf_run_of_le h]
  refine Keeps.bind (fun tally hcounted => ?_)
    ((carryOut_trigger_keeps due ⟨0, 0, 0⟩).mono (fun _ h => h.1) fun _ h => h)
  refine ⟨nofun, fun answer => ?_⟩
  cases answer with
  | error e => exact nofun
  | ok entries =>
    refine (carryOut_reconcile_keeps (entries.take (k - due.length)) tally).bind
      fun tally' hcounted' => ?_
    rintro _ ⟨⟩
    have hlength := List.length_take_le (k - due.length) entries
    simp only at hcounted
    omega

end Service

end TraceWatch
