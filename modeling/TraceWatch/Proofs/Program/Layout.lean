import TraceWatch.Proofs.Execution.Assignment

/-!
# The operations laid out

One equation for each operation that changes something: its program as a tree, call by call, down
to the programs that only read and to executions. A statement about an operation is proved about its
tree.
-/

namespace TraceWatch.Service

open Program

/-! ## A cycle -/

/-- A trigger executes its monitor over the window that is due and then moves the schedule on. -/
theorem trigger_run (template : String) (m : Monitor) (now : Timestamp) :
    (trigger template m now).run =
      match Plan.make m.nextRun m.interval now with
      | .error e => .done (.error (.window e))
      | .ok none => .halt
      | .ok (some plan) =>
        (Assignment.operation ⟨template, m.org, m, plan.window, m.evaluators⟩).run.bind fun
          | .error e => .done (.error e)
          | .ok r => .call (.store (.advance m.id plan.nextRun)) fun _ =>
            .call (.count .monitorTriggered) fun _ => .done (.ok r) := by
  unfold trigger
  cases Plan.make m.nextRun m.interval now with
  | error e => rfl
  | ok plan =>
    cases plan with
    | none => rfl
    | some plan =>
      refine (Operation.run_bind _ _).trans (bind_congr fun r => ?_)
      cases r <;> rfl

theorem triggerAll_cons (template : String) (now : Timestamp) (m : Monitor) (rest : List Monitor)
    (tally : Tally) :
    triggerAll template now (m :: rest) tally =
      .call .cancelled fun
        | true => .done (tally, false)
        | false => (trigger template m now).run.bind fun
          | .ok _ =>
            triggerAll template now rest { tally with triggered := tally.triggered + 1 }
          | .error _ => .call (.count .triggerFailed) fun _ =>
            triggerAll template now rest { tally with failed := tally.failed + 1 } := by
  rw [triggerAll]
  refine call_congr fun stop => ?_
  cases stop with
  | true => rfl
  | false =>
    refine bind_congr fun r => ?_
    cases r <;> rfl

theorem reconcile_run (entry : InFlightRun) :
    (reconcile entry).run =
      .call (.plane (.resource (.run entry.org entry.run.jobName))) fun
        | .error e => .done (.error (.plane e))
        | .ok report =>
          if entry.run.status = Report.runStatus report then .done (.ok false)
          else .call .now fun now =>
            let r := entry.run.observe (Report.runStatus report) (Report.text report) now
            .call (.store (.updateStatus r.id r.status r.errorMessage)) fun
              | .error e => .done (.error (.store e))
              | .ok () => .call (.count (.runMoved r.status)) fun _ => .done (.ok true) := by
  refine call_congr fun answer => ?_
  cases answer with
  | error e => rfl
  | ok report =>
    show (if entry.run.status = Report.runStatus report then _ else _ : Operation Bool).run = _
    dsimp only
    split
    · rfl
    · refine call_congr fun now => call_congr fun answer => ?_
      cases answer <;> rfl

theorem reconcileAll_cons (entry : InFlightRun) (rest : List InFlightRun) (tally : Tally) :
    reconcileAll (entry :: rest) tally =
      .call .cancelled fun
        | true => .done tally
        | false => (reconcile entry).run.bind fun
          | .ok true => reconcileAll rest { tally with reconciled := tally.reconciled + 1 }
          | _ => reconcileAll rest tally := by
  rw [reconcileAll]
  refine call_congr fun stop => ?_
  cases stop <;> rfl

theorem lockedCycle_run (template : String) :
    (lockedCycle template).run =
      .call .now fun now => .call (.store (.dueMonitors now)) fun
        | .error e => .done (.error (.store e))
        | .ok due => (triggerAll template now due ⟨0, 0, 0⟩).bind fun
          | (tally, false) => .done (.ok tally)
          | (tally, true) => .call (.store .inFlight) fun
            | .error e => .done (.error (.store e))
            | .ok entries => (reconcileAll entries tally).bind fun tally => .done (.ok tally) := by
  unfold lockedCycle
  refine call_congr fun now => call_congr fun answer => ?_
  cases answer with
  | error e => rfl
  | ok due =>
    show ((triggerAll template now due ⟨0, 0, 0⟩).bind _).bind _ = _
    rw [bind_assoc]
    refine bind_congr fun ⟨tally, finished⟩ => ?_
    cases finished with
    | false => rfl
    | true =>
      refine call_congr fun answer => ?_
      cases answer <;> rfl

/-- A cycle that gets the lock gives it back, whatever became of its work. -/
theorem cycle_run (template : String) :
    (cycle template).run =
      .call .acquireLock fun
        | .error e => .done (.error (.store e))
        | .ok false => .call (.count (.cycleEnded .skipped)) fun _ => .done (.ok .skipped)
        | .ok true => (lockedCycle template).run.bind fun result =>
          .call .releaseLock fun _ =>
            match result with
            | .ok tally =>
              .call (.count (.cycleEnded .completed)) fun _ => .done (.ok (.completed tally))
            | .error e => .call (.count (.cycleEnded .failed)) fun _ => .done (.error e) := by
  refine call_congr fun answer => ?_
  cases answer with
  | error e => rfl
  | ok taken =>
    cases taken with
    | false => rfl
    | true =>
      show ((lockedCycle template).run.bind _).bind _ = _
      rw [bind_assoc]
      refine Program.bind_congr fun result => call_congr fun _ => ?_
      cases result <;> rfl

/-! ## Operations on a monitor with a name -/

theorem loadMonitor_run (org name : String) :
    (loadMonitor org name).run =
      .call (.store (.findByName org name)) fun
        | .error e => .done (.error (.store e))
        | .ok none => .done (.error (.monitorNotFound org name))
        | .ok (some m) => .done (.ok m) := by
  refine call_congr fun answer => ?_
  cases answer with
  | error e => rfl
  | ok found => cases found <;> rfl

/-- An operation that begins with a monitor goes on with what is found under its name. -/
theorem loadMonitor_bind {β : Type} (org name : String) (f : Monitor → Operation β) :
    (loadMonitor org name >>= f).run =
      .call (.store (.findByName org name)) fun
        | .error e => .done (.error (.store e))
        | .ok none => .done (.error (.monitorNotFound org name))
        | .ok (some m) => (f m).run := by
  rw [Operation.run_bind, loadMonitor_run]
  refine call_congr fun answer => ?_
  cases answer with
  | error e => rfl
  | ok found => cases found <;> rfl

theorem deleteJobs_cons (org : String) (r : Run) (rest : List Run) :
    deleteJobs org (r :: rest) =
      .call (.plane (.delete (.run org r.jobName))) fun _ => deleteJobs org rest := rfl

theorem delete_run (org name : String) :
    (delete org name).run =
      .call (.store (.findByName org name)) fun
        | .error e => .done (.error (.store e))
        | .ok none => .done (.error (.monitorNotFound org name))
        | .ok (some m) => .call (.store (.listRuns m.id none)) fun
          | .error e => .done (.error (.store e))
          | .ok runs => .call (.store (.deleteMonitor m.id)) fun
            | .error e => .done (.error (.store e))
            | .ok () => (deleteJobs org runs).bind fun _ => .done (.ok ()) := by
  refine (loadMonitor_bind org name _).trans (call_congr fun answer => ?_)
  rcases answer with e | _ | m
  · rfl
  · rfl
  · refine call_congr fun answer => ?_
    cases answer with
    | error e => rfl
    | ok runs =>
      refine call_congr fun answer => ?_
      cases answer <;> rfl

theorem stop_run (org name : String) :
    (stop org name).run =
      .call (.store (.findByName org name)) fun
        | .error e => .done (.error (.store e))
        | .ok none => .done (.error (.monitorNotFound org name))
        | .ok (some m) => .call .now fun now =>
          match m.suspend now with
          | .error fault => .done (.error (.invalidState fault))
          | .ok stopped => .call (.store (.suspend stopped.id)) fun
            | .error e => .done (.error (.store e))
            | .ok true => (view stopped).run
            | .ok false => (loadMonitor org name).run.bind
              (Operation.onward fun _ => throw (.invalidState (.alreadyStopped name))) := by
  refine (loadMonitor_bind org name _).trans (call_congr fun answer => ?_)
  rcases answer with e | _ | m
  · rfl
  · rfl
  · refine call_congr fun now => ?_
    show (transition (m.suspend now) >>= _ : Operation MonitorView).run = _
    cases m.suspend now with
    | error fault => rfl
    | ok stopped =>
      refine call_congr fun answer => ?_
      rcases answer with e | _ | _
      · rfl
      · exact Operation.run_bind _ _
      · rfl

theorem start_run (org name : String) :
    (start org name).run =
      .call (.store (.findByName org name)) fun
        | .error e => .done (.error (.store e))
        | .ok none => .done (.error (.monitorNotFound org name))
        | .ok (some m) => .call .now fun now =>
          match m.resume now with
          | .error fault => .done (.error (.invalidState fault))
          | .ok started =>
            .call (.store (.resume started.id (started.nextRun.getD now))) fun
              | .error e => .done (.error (.store e))
              | .ok true => (view started).run
              | .ok false => (loadMonitor org name).run.bind
                (Operation.onward fun _ => throw (.invalidState (.alreadyActive name))) := by
  refine (loadMonitor_bind org name _).trans (call_congr fun answer => ?_)
  rcases answer with e | _ | m
  · rfl
  · rfl
  · refine call_congr fun now => ?_
    show (transition (m.resume now) >>= _ : Operation MonitorView).run = _
    cases m.resume now with
    | error fault => rfl
    | ok started =>
      refine call_congr fun answer => ?_
      rcases answer with e | _ | _
      · rfl
      · exact Operation.run_bind _ _
      · rfl

theorem update_run (org name : String) (edit : Edit) :
    (update org name edit).run =
      .call (.store (.findByName org name)) fun
        | .error e => .done (.error (.store e))
        | .ok none => .done (.error (.monitorNotFound org name))
        | .ok (some m) =>
          match edit.check m with
          | .error violation => .done (.error (.validation violation))
          | .ok () => .call .now fun now =>
            .call (.store (.updateDefinition { edit.apply m with updatedAt := now })) fun
              | .error e => .done (.error (.store e))
              | .ok () => (get org name).run := by
  refine (loadMonitor_bind org name _).trans (call_congr fun answer => ?_)
  rcases answer with e | _ | m
  · rfl
  · rfl
  · refine (Operation.run_bind _ _).trans ?_
    show (Program.done ((edit.check m).mapError MonitorError.validation)).bind _ = _
    dsimp only
    cases edit.check m with
    | error violation => rfl
    | ok =>
      refine call_congr fun now => call_congr fun answer => ?_
      cases answer <;> rfl

/-- An operation that needs a run of a monitor goes on with it, and fails if the run is that of
another. -/
theorem loadRun_bind {β : Type} (m : Monitor) (id : Uuid) (f : Run → Operation β) :
    (loadRun m id >>= f).run =
      .call (.store (.findRun id)) fun
        | .error e => .done (.error (.store e))
        | .ok none => .done (.error (.runNotFound id m.name))
        | .ok (some r) =>
          if r.monitorId = m.id then (f r).run else .done (.error (.runNotFound id m.name)) := by
  refine (Operation.run_bind _ _).trans (call_congr fun answer => ?_)
  rcases answer with e | _ | r
  · rfl
  · rfl
  · show (if r.monitorId = m.id then _ else _ : Operation Run).run.bind _ = _
    dsimp only
    split <;> rfl

theorem rerun_run (template org name : String) (id : Uuid) :
    (rerun template org name id).run =
      .call (.store (.findByName org name)) fun
        | .error e => .done (.error (.store e))
        | .ok none => .done (.error (.monitorNotFound org name))
        | .ok (some m) => .call (.store (.findRun id)) fun
          | .error e => .done (.error (.store e))
          | .ok none => .done (.error (.runNotFound id m.name))
          | .ok (some r) =>
            if r.monitorId = m.id then
              (Assignment.operation ⟨template, org, m, r.window, r.evaluators⟩).run
            else .done (.error (.runNotFound id m.name)) := by
  refine (loadMonitor_bind org name _).trans (call_congr fun answer => ?_)
  rcases answer with e | _ | m
  · rfl
  · rfl
  · exact loadRun_bind m id _

/-! ## Creating a monitor -/

theorem create_run (template org : String) (request : NewMonitor) :
    (create template org request).run =
      .call .now fun now =>
        let request := request.truncate
        match request.check now with
        | .error violation => .done (.error (.validation violation))
        | .ok () => .call (.store (.findByName org request.name)) fun
          | .error e => .done (.error (.store e))
          | .ok (some _) => .done (.error (.alreadyExists org request.name))
          | .ok none => .call (.plane (.agent org request.project request.agent)) fun
            | .error e => .done (.error (.plane e))
            | .ok agentId => .call (.plane (.environment org request.environment)) fun
              | .error e => .done (.error (.plane e))
              | .ok environmentId => .call .freshId fun id =>
                let m := request.toMonitor id org agentId environmentId now
                .call (.store (.createMonitor m)) fun
                  | .error e => .done (.error (takenName org m.name e))
                  | .ok () =>
                    match m.traceStart, m.traceEnd with
                    | some start, some stop =>
                      (Assignment.operation
                        ⟨template, org, m, ⟨start, stop⟩, m.evaluators⟩).run.bind fun
                        | .ok r => .done (.ok ⟨m, m.status (some r.status), some r⟩)
                        | .error e => .call (.store (.deleteMonitor m.id)) fun _ =>
                          .done (.error e)
                    | _, _ => .done (.ok ⟨m, m.status none, none⟩) := by
  refine call_congr fun now => ?_
  refine (Operation.run_bind _ _).trans ?_
  show (Program.done ((request.truncate.check now).mapError MonitorError.validation)).bind _ = _
  dsimp only
  cases request.truncate.check now with
  | error violation => rfl
  | ok =>
    refine call_congr fun answer => ?_
    rcases answer with e | _ | m
    · rfl
    · refine call_congr fun answer => ?_
      cases answer with
      | error e => rfl
      | ok agentId =>
        refine call_congr fun answer => ?_
        cases answer with
        | error e => rfl
        | ok environmentId =>
          refine call_congr fun id => call_congr fun answer => ?_
          cases answer with
          | error e => rfl
          | ok =>
            dsimp only
            generalize request.truncate.toMonitor id org agentId environmentId now = m
            cases m.traceStart with
            | none => rfl
            | some start =>
              cases m.traceEnd with
              | none => rfl
              | some stop =>
                show ((execute template org m ⟨start, stop⟩ m.evaluators).run.bind _).bind _ = _
                rw [bind_assoc]
                refine Program.bind_congr fun r => ?_
                cases r <;> rfl
    · rfl

end TraceWatch.Service
