import TraceWatch.Proofs.Program.Layout
import TraceWatch.Proofs.Protocol.Follows

/-!
# Every activity follows the protocol

The trees of the operations are gone through call by call; loops are followed by induction over
their lists. The result is `Activity.follows`: each activity follows the protocol from the phase
`idle` on, and ends as `Activity.MayEnd` says.
-/

namespace TraceWatch

open Program

variable {template org name : String}

/-! ## Cycles -/

namespace Service

/-- A trigger for a monitor that comes up in the rounds leads back to the rounds. -/
theorem trigger_follows (now : Timestamp) (passed rest : List Monitor) (m : Monitor) :
    (trigger template m now).run.Follows (.cycle template)
      (fun _ φ => φ = .rounds now rest ∨ φ = .rounds now (passed ++ m :: rest))
      (.rounds now (passed ++ m :: rest)) := by
  rw [trigger_run]
  cases hplan : Plan.make m.nextRun m.interval now with
  | error e => exact .inr rfl
  | ok plan =>
    cases plan with
    | none => trivial
    | some plan =>
      refine Follows.bind (Follows.mono ?_
        (Assignment.follows _ (k := .trigger now rest plan.nextRun)
          trivial (fun id => .aim hplan) (fun id => .waste (.inl trivial))))
      intro result φ hφ
      cases result with
      | error e => exact hφ
      | ok r =>
        subst hφ
        exact fun _ _ => ⟨_, .advance, fun _ _ => ⟨_, .read rfl trivial rfl, .inl rfl⟩⟩

theorem triggerAll_follows (now : Timestamp) : ∀ (due passed : List Monitor) (tally : Tally),
    (triggerAll template now due tally).Follows (.cycle template)
      (fun _ φ => ∃ left, φ = .rounds now left) (.rounds now (passed ++ due))
  | [], passed, tally => ⟨passed ++ [], rfl⟩
  | m :: rest, passed, tally => by
    rw [triggerAll_cons]
    refine fun stop _ => ⟨_, .read rfl trivial rfl, ?_⟩
    cases stop with
    | true => exact ⟨_, rfl⟩
    | false =>
      refine Follows.bind (Follows.mono ?_ (trigger_follows now passed rest m))
      -- both ways the monitors left are those of `rest`, after some that have been passed
      intro result φ hφ
      have hrest : ∃ before, φ = .rounds now (before ++ rest) := by
        rcases hφ with rfl | rfl
        · exact ⟨[], rfl⟩
        · exact ⟨passed ++ [m], by rw [List.append_assoc]; rfl⟩
      obtain ⟨before, rfl⟩ := hrest
      cases result with
      | ok r => exact triggerAll_follows now rest before _
      | error e =>
        exact fun _ _ => ⟨_, .read rfl trivial rfl, triggerAll_follows now rest before _⟩

/-- The reconciliation of a run that comes up leaves those behind it, and perhaps more. -/
theorem reconcile_follows (passed rest : List InFlightRun) (entry : InFlightRun) :
    (reconcile entry).run.Follows (.cycle template)
      (fun _ φ => φ = .tending rest ∨ φ = .tending (passed ++ entry :: rest))
      (.tending (passed ++ entry :: rest)) := by
  rw [reconcile_run]
  intro report _
  cases report with
  | error e => exact ⟨_, .read rfl trivial rfl, .inr rfl⟩
  | ok report =>
    dsimp only
    split
    · exact ⟨_, .read rfl trivial rfl, .inr rfl⟩
    · next hnews =>
      refine ⟨_, .consult hnews, fun t _ => ⟨_, .read rfl trivial rfl, ?_⟩⟩
      dsimp only
      rw [Run.observe_report hnews]
      refine fun answer _ => ⟨_, .tend, ?_⟩
      cases answer with
      | error e => exact .inl rfl
      | ok => exact fun _ _ => ⟨_, .read rfl trivial rfl, .inl rfl⟩

theorem reconcileAll_follows : ∀ (entries passed : List InFlightRun) (tally : Tally),
    (reconcileAll entries tally).Follows (.cycle template)
      (fun _ φ => ∃ left, φ = .tending left) (.tending (passed ++ entries))
  | [], passed, _ => ⟨passed ++ [], rfl⟩
  | entry :: rest, passed, tally => by
    rw [reconcileAll_cons]
    refine fun stop _ => ⟨_, .read rfl trivial rfl, ?_⟩
    cases stop with
    | true => exact ⟨_, rfl⟩
    | false =>
      refine Follows.bind (Follows.mono ?_ (reconcile_follows passed rest entry))
      intro result φ hφ
      have hrest : ∃ before, φ = .tending (before ++ rest) := by
        rcases hφ with rfl | rfl
        · exact ⟨[], rfl⟩
        · exact ⟨passed ++ [entry], by rw [List.append_assoc]; rfl⟩
      obtain ⟨before, rfl⟩ := hrest
      rcases result with e | _ | _
      · exact reconcileAll_follows rest before _
      · exact reconcileAll_follows rest before _
      · exact reconcileAll_follows rest before _

theorem lockedCycle_follows :
    (lockedCycle template).run.Follows (.cycle template)
      (fun _ φ => (∃ now due, φ = .rounds now due) ∨ ∃ left, φ = .tending left) .locked := by
  rw [lockedCycle_run]
  refine fun now _ => ⟨_, .time, fun answer hanswer => ?_⟩
  obtain ⟨_, s, rfl⟩ := hanswer.store
  refine ⟨_, .snapshot, ?_⟩
  refine Follows.bind (Follows.mono ?_ (triggerAll_follows now _ [] ⟨0, 0, 0⟩))
  rintro ⟨tally, finished⟩ φ ⟨left, rfl⟩
  cases finished with
  | false => exact .inl ⟨now, left, rfl⟩
  | true =>
    intro answer _
    cases answer with
    | error e => exact ⟨_, .read rfl trivial rfl, .inl ⟨now, left, rfl⟩⟩
    | ok entries =>
      refine ⟨_, .survey, Follows.bind (Follows.mono ?_ (reconcileAll_follows entries [] tally))⟩
      rintro tally φ ⟨left, rfl⟩
      exact .inr ⟨left, rfl⟩

theorem cycle_follows :
    (cycle template).run.Follows (.cycle template) (fun _ φ => φ = .idle) .idle := by
  rw [cycle_run]
  intro answer hanswer
  obtain ⟨taken, rfl⟩ := hanswer.acquireLock
  cases taken with
  | false => exact ⟨_, .busy, fun _ _ => ⟨_, .read rfl trivial rfl, rfl⟩⟩
  | true =>
    refine ⟨_, .lock, Follows.bind (Follows.mono ?_ lockedCycle_follows)⟩
    rintro result φ (⟨now, due, rfl⟩ | ⟨left, rfl⟩)
    · refine fun _ _ => ⟨_, .unlock, ?_⟩
      cases result <;> exact fun _ _ => ⟨_, .read rfl trivial rfl, rfl⟩
    · refine fun _ _ => ⟨_, .leave, ?_⟩
      cases result <;> exact fun _ _ => ⟨_, .read rfl trivial rfl, rfl⟩

end Service

/-! ## Operations on a monitor with a name -/

namespace Service

/-- A monitor that is looked for is found under its name, or it is not found. -/
theorem find_follows {α : Type} {a : Activity} {post : α → Phase → Prop}
    {next : Except StoreError (Option Monitor) → Program α} (ha : a.target = some (org, name))
    (hfound : ∀ m, m.org = org → m.name = name → (next (.ok (some m))).Follows a post (.loaded m))
    (hmissing : (next (.ok none)).Follows a post .idle) :
    (Program.call (.store (.findByName org name)) next).Follows a post .idle := by
  intro answer hanswer
  rcases hanswer.findByName with rfl | ⟨m, rfl, rfl, rfl⟩
  · exact ⟨_, .miss, hmissing⟩
  · exact ⟨_, .load ha, hfound m rfl rfl⟩

theorem deleteJobs_follows (m : Monitor) : ∀ runs : List Run,
    (deleteJobs m.org runs).Follows (.delete m.org m.name) (fun _ φ => φ = .cleaning m [])
      (.cleaning m runs)
  | [] => rfl
  | r :: rest => by
    rw [deleteJobs_cons]
    exact fun _ _ => ⟨_, .clean, deleteJobs_follows m rest⟩

theorem delete_follows :
    (delete org name).run.Follows (.delete org name) (Activity.delete org name).MayEnd .idle := by
  rw [delete_run]
  refine find_follows rfl ?_ trivial
  rintro m rfl rfl answer hanswer
  obtain ⟨_, s, rfl⟩ := hanswer.store
  refine ⟨_, .enlist, fun answer hanswer => ⟨_, .remove, ?_⟩⟩
  obtain ⟨_, s, rfl⟩ := hanswer.store
  refine Follows.bind (Follows.mono ?_ (deleteJobs_follows m _))
  rintro - φ rfl
  exact ⟨m, rfl, rfl, rfl⟩

/-- A monitor that can be stopped is taken off its schedule. -/
theorem suspend_eq {m stopped : Monitor} {now : Timestamp} (h : m.suspend now = .ok stopped) :
    stopped = { m with nextRun := none, updatedAt := now } := by
  unfold Monitor.suspend at h
  split at h
  · cases h
  · split at h
    · cases h
    · exact (Except.ok.inj h).symm

/-- A monitor that can be started is due at once. -/
theorem resume_eq {m started : Monitor} {now : Timestamp} (h : m.resume now = .ok started) :
    started = { m with nextRun := some now, updatedAt := now } := by
  unfold Monitor.resume at h
  split at h
  · cases h
  · split at h
    · cases h
    · exact (Except.ok.inj h).symm

/-- What an operation that has come too late does: it looks again, and fails. -/
theorem late_follows {α : Type} {a : Activity} {post : Except MonitorError α → Phase → Prop}
    (ha : a.isDelete = false) (e : MonitorError) (hpost : ∀ e, post (.error e) .idle) :
    ((loadMonitor org name).run.bind
      (Operation.onward fun _ => (throw e : Operation α))).Follows a post .idle := by
  refine (readsOnly_loadMonitor org name).follows_bind trivial ha fun found => ?_
  cases found <;> exact hpost _

theorem stop_follows :
    (stop org name).run.Follows (.stop org name) (Activity.stop org name).MayEnd .idle := by
  rw [stop_run]
  refine find_follows rfl ?_ trivial
  rintro m rfl rfl now -
  refine ⟨_, .pause, ?_⟩
  dsimp only
  cases hstop : m.suspend now with
  | error fault => trivial
  | ok stopped =>
    obtain rfl := suspend_eq hstop
    dsimp only
    intro answer hanswer
    obtain ⟨_, s, rfl⟩ := hanswer.store
    cases hdone : (StoreCall.perform _ s (.suspend m.id)).1 with
    | error e => cases hdone
    | ok done =>
      cases done with
      | false => exact ⟨_, .lateStop, late_follows rfl _ fun _ => trivial⟩
      | true =>
        refine ⟨_, .stop, ?_⟩
        refine ReadsOnly.follows (by trivial) rfl (fun result => ?_) (readsOnly_view _)
        cases result with
        | error e => trivial
        | ok shown => exact ⟨m, rfl, rfl, rfl⟩

theorem start_follows :
    (start org name).run.Follows (.start org name) (Activity.start org name).MayEnd .idle := by
  rw [start_run]
  refine find_follows rfl ?_ trivial
  rintro m rfl rfl now -
  refine ⟨_, .pause, ?_⟩
  dsimp only
  cases hstart : m.resume now with
  | error fault => trivial
  | ok started =>
    obtain rfl := resume_eq hstart
    dsimp only [Option.getD_some]
    intro answer hanswer
    obtain ⟨_, s, rfl⟩ := hanswer.store
    cases hdone : (StoreCall.perform _ s (.resume m.id now)).1 with
    | error e => cases hdone
    | ok done =>
      cases done with
      | false => exact ⟨_, .lateStart, late_follows rfl _ fun _ => trivial⟩
      | true =>
        refine ⟨_, .start, ?_⟩
        refine ReadsOnly.follows (by trivial) rfl (fun result => ?_) (readsOnly_view _)
        cases result with
        | error e => trivial
        | ok shown => exact ⟨m, rfl, rfl, rfl⟩

theorem update_follows (edit : Edit) :
    (update org name edit).run.Follows (.update org name edit)
      (Activity.update org name edit).MayEnd .idle := by
  rw [update_run]
  refine find_follows rfl ?_ trivial
  rintro m rfl rfl
  dsimp only
  cases hcheck : edit.check m with
  | error violation => trivial
  | ok =>
    refine fun now _ => ⟨_, .pause, fun answer _ => ⟨_, .edit hcheck, ?_⟩⟩
    cases answer with
    | error e => trivial
    | ok => exact ReadsOnly.follows (by trivial) rfl (fun _ => trivial) (readsOnly_get _ _)

theorem rerun_follows (id : Uuid) :
    (rerun template org name id).run.Follows (.rerun template org name id)
      (Activity.rerun template org name id).MayEnd .idle := by
  rw [rerun_run]
  refine find_follows rfl ?_ trivial
  rintro m rfl rfl answer hanswer
  rcases hanswer.findRun with rfl | ⟨r, rfl, rfl⟩
  · exact ⟨_, .seek, trivial⟩
  · dsimp only
    split
    · next hmonitor =>
      refine ⟨_, .choose hmonitor, ?_⟩
      refine Follows.mono ?_ (Assignment.follows _ (k := .rerun) trivial (fun id => .again)
        fun id => .waste (.inr ⟨m, r, rfl⟩))
      intro result φ hφ
      cases result with
      | ok r => exact hφ ▸ trivial
      | error e => rcases hφ with rfl | rfl <;> trivial
    · exact ⟨_, .seek, trivial⟩

/-! ## Creating a monitor -/

/-- What a creation does when its monitor is in the store: it carries out the first run of a past
monitor, and takes the monitor back if that fails. -/
theorem initial_follows {request : NewMonitor} (m : Monitor) (horg : m.org = org) :
    Program.Follows (.create template org request)
      (Activity.create template org request).MayEnd
      (match m.traceStart, m.traceEnd with
        | some start, some stop =>
          (Assignment.operation ⟨template, org, m, ⟨start, stop⟩, m.evaluators⟩).run.bind fun
            | .ok r => .done (.ok ⟨m, m.status (some r.status), some r⟩)
            | .error e => .call (.store (.deleteMonitor m.id)) fun _ => .done (.error e)
        | _, _ => .done (.ok ⟨m, m.status none, none⟩))
      (.created m) := by
  subst horg
  split
  · next start stop hstart hstop =>
    refine Follows.bind (Follows.mono ?_ (Assignment.follows _ (k := .initial) trivial
      (fun id => .begin hstart hstop) fun id => .waste (.inl trivial)))
    intro result φ hφ
    cases result with
    | ok r => exact hφ ▸ trivial
    | error e => rcases hφ with rfl | rfl <;> exact fun _ _ => ⟨_, .rollBack hstart, trivial⟩
  · trivial

theorem create_follows (request : NewMonitor) :
    (create template org request).run.Follows (.create template org request)
      (Activity.create template org request).MayEnd .idle := by
  rw [create_run]
  refine fun now _ => ⟨_, .date, ?_⟩
  dsimp only
  cases hcheck : request.truncate.check now with
  | error violation => trivial
  | ok =>
    refine fun found _ => ⟨_, .read rfl trivial rfl, ?_⟩
    rcases found with e | _ | taken
    · trivial
    · refine fun agentId _ => ⟨_, .read rfl trivial rfl, ?_⟩
      cases agentId with
      | error e => trivial
      | ok agentId =>
        refine fun environmentId _ => ⟨_, .read rfl trivial rfl, ?_⟩
        cases environmentId with
        | error e => trivial
        | ok environmentId =>
          rintro id -
          refine ⟨.drafted (request.truncate.toMonitor id org agentId environmentId now),
            .draft hcheck, fun answer _ => ?_⟩
          cases answer with
          | error e => exact ⟨_, .taken, trivial⟩
          | ok => exact ⟨_, .create, initial_follows _ rfl⟩
    · trivial

end Service

/-! ## All of them -/

/-- Each activity follows the protocol, from its beginning to where it may end. -/
theorem Activity.follows (a : Activity) : a.operation.run.Follows a a.MayEnd .idle := by
  cases a with
  | cycle template => exact Service.cycle_follows.mono fun _ _ h => h ▸ trivial
  | create template org request => exact Service.create_follows request
  | get org name =>
    exact ReadsOnly.follows (by trivial) rfl (fun _ => trivial) (Service.readsOnly_get org name)
  | list org filter =>
    exact ReadsOnly.follows (by trivial) rfl (fun _ => trivial) (Service.readsOnly_list org filter)
  | update org name edit => exact Service.update_follows edit
  | delete org name => exact Service.delete_follows
  | stop org name => exact Service.stop_follows
  | start org name => exact Service.start_follows
  | runs org name limit =>
    exact ReadsOnly.follows (by trivial) rfl (fun _ => trivial)
      (Service.readsOnly_runs org name limit)
  | rerun template org name id => exact Service.rerun_follows id
  | logs org name id =>
    exact ReadsOnly.follows (by trivial) rfl (fun _ => trivial) (Service.readsOnly_logs org name id)

end TraceWatch
