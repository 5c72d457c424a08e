import TraceWatch.Proofs.Program.Layout
import TraceWatch.Proofs.Program.Plays
import TraceWatch.Proofs.System.Site

/-!
# Who has to do with the lock

Of all activities only a cycle calls for the scheduler lock, and it does so first of all. If it gets
the lock, it gives it back before it ends, whatever its calls are answered: whether its work comes
to its end, is cut short or fails (`Program.Releases`). If it does not, one call is left to it
(`Service.skipping`). `Activity.opens` says so of every activity at its beginning.
-/

namespace TraceWatch

/-- The call has nothing to do with the scheduler lock. -/
def Call.SparesLock (c : Call) : Prop := c ≠ .acquireLock ∧ c ≠ .releaseLock

/-- A call that reads has nothing to do with the lock. -/
theorem Call.sparesLock_of_isRead {c : Call} (h : c.isRead = true) : c.SparesLock := by
  constructor <;> rintro rfl <;> cases h

namespace Program

variable {α β : Type}

/-- The program has nothing to do with the lock, whatever its calls are answered. -/
abbrev SparesLock (p : Program α) : Prop := p.Makes Call.SparesLock

/-- The program gives the lock back before it ends, whatever its calls are answered, and has nothing
to do with the lock otherwise. One that leaves the calendar gives nothing back. -/
inductive Releases : Program α → Prop
  | halt : Releases .halt
  | release {next : Except StoreError Unit → Program α} : (∀ answer, (next answer).SparesLock) →
    Releases (.call .releaseLock next)
  | call {c : Call} {next : c.Answer → Program α} : c.SparesLock →
    (∀ answer, (next answer).Releases) → Releases (.call c next)

theorem Makes.mono {P Q : Call → Prop} (hPQ : ∀ c, P c → Q c) :
    ∀ {p : Program α}, p.Makes P → p.Makes Q
  | .done _, _ => trivial
  | .halt, _ => trivial
  | .call c _, h => ⟨hPQ c h.1, fun answer => (h.2 answer).mono hPQ⟩

theorem Makes.bind {P : Call → Prop} {f : α → Program β} (hf : ∀ v, (f v).Makes P) :
    ∀ {p : Program α}, p.Makes P → (p.bind f).Makes P
  | .done v, _ => hf v
  | .halt, _ => trivial
  | .call _ _, h => ⟨h.1, fun answer => (h.2 answer).bind hf⟩

theorem ReadsOnly.sparesLock {p : Program α} (h : p.ReadsOnly) : p.SparesLock :=
  h.makes.mono fun _ => Call.sparesLock_of_isRead

/-- What has nothing to do with the lock may come before the lock is given back. -/
theorem Releases.bind {f : α → Program β} (hf : ∀ v, (f v).Releases) :
    ∀ {p : Program α}, p.SparesLock → (p.bind f).Releases
  | .done v, _ => hf v
  | .halt, _ => .halt
  | .call _ _, h => .call h.1 fun answer => Releases.bind hf (h.2 answer)

/-- A program that gives the lock back does so with its first call or later. -/
theorem Releases.of_call {c : Call} {next : c.Answer → Program α}
    (h : (Program.call c next).Releases) :
    (c = .releaseLock ∧ ∀ answer, (next answer).SparesLock) ∨
      (c.SparesLock ∧ ∀ answer, (next answer).Releases) := by
  cases h with
  | release hspares => exact .inl ⟨rfl, hspares⟩
  | call hc hrest => exact .inr ⟨hc, hrest⟩

end Program

open Program

/-- An execution has nothing to do with the lock. -/
theorem Assignment.sparesLock (x : Assignment) : x.operation.run.SparesLock := by
  rw [operation_run]
  refine ⟨⟨nofun, nofun⟩, fun id => ?_⟩
  dsimp only
  split
  · trivial
  · refine ⟨⟨nofun, nofun⟩, fun answer => ?_⟩
    cases answer with
    | error e => trivial
    | ok job =>
      refine ⟨⟨nofun, nofun⟩, fun now => ⟨⟨nofun, nofun⟩, fun answer => ?_⟩⟩
      cases answer with
      | error e => exact ⟨⟨nofun, nofun⟩, fun _ => trivial⟩
      | ok => exact ⟨⟨nofun, nofun⟩, fun _ => trivial⟩

namespace Service

variable {template org name : String}

/-! ## A cycle -/

theorem trigger_sparesLock (m : Monitor) (now : Timestamp) :
    (trigger template m now).run.SparesLock := by
  rw [trigger_run]
  split
  · trivial
  · trivial
  · refine (Assignment.sparesLock _).bind fun r => ?_
    cases r with
    | error e => trivial
    | ok r => exact ⟨⟨nofun, nofun⟩, fun _ => ⟨⟨nofun, nofun⟩, fun _ => trivial⟩⟩

theorem triggerAll_sparesLock (now : Timestamp) : ∀ (due : List Monitor) (tally : Tally),
    (triggerAll template now due tally).SparesLock
  | [], _ => trivial
  | m :: rest, tally => by
    rw [triggerAll_cons]
    refine ⟨⟨nofun, nofun⟩, fun stop => ?_⟩
    cases stop with
    | true => trivial
    | false =>
      refine (trigger_sparesLock m now).bind fun r => ?_
      cases r with
      | ok r => exact triggerAll_sparesLock now rest _
      | error e => exact ⟨⟨nofun, nofun⟩, fun _ => triggerAll_sparesLock now rest _⟩

theorem reconcile_sparesLock (entry : InFlightRun) : (reconcile entry).run.SparesLock := by
  rw [reconcile_run]
  refine ⟨⟨nofun, nofun⟩, fun answer => ?_⟩
  cases answer with
  | error e => trivial
  | ok report =>
    dsimp only
    split
    · trivial
    · refine ⟨⟨nofun, nofun⟩, fun now => ⟨⟨nofun, nofun⟩, fun answer => ?_⟩⟩
      cases answer with
      | error e => trivial
      | ok => exact ⟨⟨nofun, nofun⟩, fun _ => trivial⟩

theorem reconcileAll_sparesLock : ∀ (entries : List InFlightRun) (tally : Tally),
    (reconcileAll entries tally).SparesLock
  | [], _ => trivial
  | entry :: rest, tally => by
    rw [reconcileAll_cons]
    refine ⟨⟨nofun, nofun⟩, fun stop => ?_⟩
    cases stop with
    | true => trivial
    | false =>
      refine (reconcile_sparesLock entry).bind fun r => ?_
      rcases r with e | _ | _
      · exact reconcileAll_sparesLock rest _
      · exact reconcileAll_sparesLock rest _
      · exact reconcileAll_sparesLock rest _

/-- The work of a cycle is between the taking of the lock and its return, and has to do with
neither. -/
theorem lockedCycle_sparesLock : (lockedCycle template).run.SparesLock := by
  rw [lockedCycle_run]
  refine ⟨⟨nofun, nofun⟩, fun now => ⟨⟨nofun, nofun⟩, fun answer => ?_⟩⟩
  cases answer with
  | error e => trivial
  | ok due =>
    refine (triggerAll_sparesLock now due _).bind fun ⟨tally, finished⟩ => ?_
    cases finished with
    | false => trivial
    | true =>
      refine ⟨⟨nofun, nofun⟩, fun answer => ?_⟩
      cases answer with
      | error e => trivial
      | ok entries =>
        refine (reconcileAll_sparesLock entries tally).bind fun tally => ?_
        trivial

/-- What a cycle does that has the lock. -/
def held (template : String) : Program (Except MonitorError CycleOutcome) :=
  (lockedCycle template).run.bind fun result =>
    .call .releaseLock fun _ =>
      match result with
      | .ok tally => .call (.count (.cycleEnded .completed)) fun _ => .done (.ok (.completed tally))
      | .error e => .call (.count (.cycleEnded .failed)) fun _ => .done (.error e)

/-- What a cycle does that has not got the lock. -/
def skipping : Program (Except MonitorError CycleOutcome) :=
  .call (.count (.cycleEnded .skipped)) fun _ => .done (.ok .skipped)

theorem held_releases : (held template).Releases := by
  refine Releases.bind (fun result => .release fun _ => ?_) lockedCycle_sparesLock
  cases result with
  | ok tally => exact ⟨⟨nofun, nofun⟩, fun _ => trivial⟩
  | error e => exact ⟨⟨nofun, nofun⟩, fun _ => trivial⟩

/-- A cycle calls for the lock first, and goes on by the answer. -/
theorem cycle_opens : (cycle template).run = .call .acquireLock fun
    | .error e => .done (.error (.store e))
    | .ok false => skipping
    | .ok true => held template :=
  cycle_run template

/-! ## The operations of the manager -/

theorem deleteJobs_sparesLock : ∀ runs : List Run, (deleteJobs org runs).SparesLock
  | [] => trivial
  | _ :: rest => ⟨⟨nofun, nofun⟩, fun _ => deleteJobs_sparesLock rest⟩

/-- An operation that begins with a monitor has to do with the lock only if what follows has. -/
theorem find_sparesLock {α : Type} {f : Monitor → Program (Except MonitorError α)}
    (hf : ∀ m, (f m).SparesLock) :
    (Program.call (.store (.findByName org name)) fun
      | .error e => .done (.error (.store e))
      | .ok none => .done (.error (.monitorNotFound org name))
      | .ok (some m) => f m : Program (Except MonitorError α)).SparesLock := by
  refine ⟨⟨nofun, nofun⟩, fun answer => ?_⟩
  rcases answer with e | _ | m
  · trivial
  · trivial
  · exact hf m

theorem delete_sparesLock : (delete org name).run.SparesLock := by
  rw [delete_run]
  refine find_sparesLock fun m => ⟨⟨nofun, nofun⟩, fun answer => ?_⟩
  cases answer with
  | error e => trivial
  | ok runs =>
    refine ⟨⟨nofun, nofun⟩, fun answer => ?_⟩
    cases answer with
    | error e => trivial
    | ok =>
      refine (deleteJobs_sparesLock runs).bind fun _ => ?_
      trivial

/-- The second look for a monitor after a switch in vain has nothing to do with the lock. -/
theorem late_sparesLock {α : Type} (e : MonitorError) : ((loadMonitor org name).run.bind
    (Operation.onward fun _ => (throw e : Operation α))).SparesLock := by
  refine (readsOnly_loadMonitor org name).sparesLock.bind fun found => ?_
  cases found <;> trivial

theorem stop_sparesLock : (stop org name).run.SparesLock := by
  rw [stop_run]
  refine find_sparesLock fun m => ⟨⟨nofun, nofun⟩, fun now => ?_⟩
  dsimp only
  cases m.suspend now with
  | error fault => trivial
  | ok stopped =>
    refine ⟨⟨nofun, nofun⟩, fun answer => ?_⟩
    rcases answer with e | _ | _
    · trivial
    · exact late_sparesLock _
    · exact (readsOnly_view stopped).sparesLock

theorem start_sparesLock : (start org name).run.SparesLock := by
  rw [start_run]
  refine find_sparesLock fun m => ⟨⟨nofun, nofun⟩, fun now => ?_⟩
  dsimp only
  cases m.resume now with
  | error fault => trivial
  | ok started =>
    refine ⟨⟨nofun, nofun⟩, fun answer => ?_⟩
    rcases answer with e | _ | _
    · trivial
    · exact late_sparesLock _
    · exact (readsOnly_view started).sparesLock

theorem update_sparesLock (edit : Edit) : (update org name edit).run.SparesLock := by
  rw [update_run]
  refine find_sparesLock fun m => ?_
  cases edit.check m with
  | error violation => trivial
  | ok =>
    refine ⟨⟨nofun, nofun⟩, fun now => ⟨⟨nofun, nofun⟩, fun answer => ?_⟩⟩
    cases answer with
    | error e => trivial
    | ok => exact (readsOnly_get org name).sparesLock

theorem rerun_sparesLock (id : Uuid) : (rerun template org name id).run.SparesLock := by
  rw [rerun_run]
  refine find_sparesLock fun m => ⟨⟨nofun, nofun⟩, fun answer => ?_⟩
  rcases answer with e | _ | r
  · trivial
  · trivial
  · dsimp only
    split
    · exact Assignment.sparesLock _
    · trivial

theorem create_sparesLock (request : NewMonitor) :
    (create template org request).run.SparesLock := by
  rw [create_run]
  refine ⟨⟨nofun, nofun⟩, fun now => ?_⟩
  dsimp only
  split
  · trivial
  refine ⟨⟨nofun, nofun⟩, fun answer => ?_⟩
  rcases answer with e | _ | _
  · trivial
  · refine ⟨⟨nofun, nofun⟩, fun answer => ?_⟩
    cases answer with
    | error e => trivial
    | ok agentId =>
      refine ⟨⟨nofun, nofun⟩, fun answer => ?_⟩
      cases answer with
      | error e => trivial
      | ok environmentId =>
        refine ⟨⟨nofun, nofun⟩, fun id => ⟨⟨nofun, nofun⟩, fun answer => ?_⟩⟩
        cases answer with
        | error e => trivial
        | ok =>
          dsimp only
          split
          · refine (Assignment.sparesLock _).bind fun r => ?_
            cases r with
            | ok r => trivial
            | error e => exact ⟨⟨nofun, nofun⟩, fun _ => trivial⟩
          · trivial
  · trivial

end Service

/-- An activity is a cycle, which calls for the lock first, or it has nothing to do with the
lock. -/
theorem Activity.opens (a : Activity) :
    (∃ template, a = .cycle template) ∨ a.operation.run.SparesLock := by
  cases a with
  | cycle template => exact .inl ⟨template, rfl⟩
  | create template org request => exact .inr (Service.create_sparesLock request)
  | get org name => exact .inr (Service.readsOnly_get org name).sparesLock
  | list org filter => exact .inr (Service.readsOnly_list org filter).sparesLock
  | update org name edit => exact .inr (Service.update_sparesLock edit)
  | delete org name => exact .inr Service.delete_sparesLock
  | stop org name => exact .inr Service.stop_sparesLock
  | start org name => exact .inr Service.start_sparesLock
  | runs org name limit => exact .inr (Service.readsOnly_runs org name limit).sparesLock
  | rerun template org name id => exact .inr (Service.rerun_sparesLock id)
  | logs org name id => exact .inr (Service.readsOnly_logs org name id).sparesLock

end TraceWatch
