import TraceWatch.Proofs.Monitors.Atomicity
import TraceWatch.Proofs.Monitors.Requests

/-!
# What a creation comes to

What becomes of a request for a monitor depends on the request, the clock, the store and the answers
of the workflow plane, and on nothing else. `Admission` tells all the ways in which it can go: with
which effects, in their order, with which result, and what is in the store afterwards. A creation
that nobody disturbs goes in one of these ways (`Service.create_admits`), and it succeeds exactly if
the request is valid, its name is free, and the plane answers everything it is asked.
-/

namespace TraceWatch

open Program

/-! ## Effects -/

/-- The effect of a move, if it has one: a call of the workflow plane, or a call that is there to
change the store. -/
def Move.effect? : Move → Option Exchange
  | ⟨.plane c, answer, _, _⟩ => some ⟨.plane c, answer⟩
  | ⟨.store c, answer, _, _⟩ => if c.isRead then none else some ⟨.store c, answer⟩
  | _ => none

/-- The effects of moves, in order, with their answers. -/
def effects (moves : List Move) : List Exchange := moves.filterMap Move.effect?

theorem effects_append (first second : List Move) :
    effects (first ++ second) = effects first ++ effects second :=
  List.filterMap_append

/-- The identifiers that are drawn are those of nothing in the store. -/
def DrawsNew (s : Store) (moves : List Move) : Prop :=
  ∀ id before after, ⟨.freshId, id, before, after⟩ ∈ moves → ¬ s.HasMonitor id ∧ ¬ s.HasRun id

/-! ## Admission -/

/-- Some monitor of the organization has the name. -/
def Store.Bears (s : Store) (org name : String) : Prop :=
  ∃ m ∈ s.monitors, m.org = org ∧ m.name = name

/-- The monitor is the one asked for. A future one is due at once. -/
structure NewMonitor.Yields (r : NewMonitor) (org agentId environmentId : String) (now : Timestamp)
    (m : Monitor) : Prop where
  name : m.name = r.name
  displayName : m.displayName = r.displayName
  kind : m.kind = r.kind
  org : m.org = org
  project : m.project = r.project
  agent : m.agent = r.agent
  agentId : m.agentId = agentId
  environment : m.environment = r.environment
  environmentId : m.environmentId = environmentId
  evaluators : m.evaluators = r.evaluators
  samplingRate : m.samplingRate = r.samplingRate.getD (.ofNat 1)
  interval : m.interval = if r.kind = .future then some (r.interval.getD 60) else none
  nextRun : m.nextRun = if r.kind = .future then some now else none
  traceStart : m.traceStart = r.traceStart
  traceEnd : m.traceEnd = r.traceEnd
  createdAt : m.createdAt = now
  updatedAt : m.updatedAt = now

theorem NewMonitor.yields_toMonitor (r : NewMonitor) (id : Uuid)
    (org agentId environmentId : String) (now : Timestamp) :
    r.Yields org agentId environmentId now (r.toMonitor id org agentId environmentId now) :=
  ⟨rfl, rfl, rfl, rfl, rfl, rfl, rfl, rfl, rfl, rfl, rfl, rfl, rfl, rfl, rfl, rfl, rfl⟩

section

variable (template org : String) (r : NewMonitor) (now : Timestamp) (s : Store)

/-- The ways in which a request can go: its effects, its result, and the store afterwards. -/
inductive Admission : List Exchange → Except MonitorError MonitorView → Store → Prop
  | invalid {v : Violation} : r.FirstBroken now v → Admission [] (.error (.validation v)) s
  | taken : r.IsValid now → s.Bears org r.name →
    Admission [] (.error (.alreadyExists org r.name)) s
  | noAgent {e : PlaneError} : r.IsValid now → ¬ s.Bears org r.name →
    Admission [⟨.plane (.agent org r.project r.agent), .error e⟩] (.error (.plane e)) s
  | noEnvironment {agentId : String} {e : PlaneError} : r.IsValid now → ¬ s.Bears org r.name →
    Admission
      [⟨.plane (.agent org r.project r.agent), .ok agentId⟩,
        ⟨.plane (.environment org r.environment), .error e⟩]
      (.error (.plane e)) s
  | future {agentId environmentId : String} {m : Monitor} : r.IsValid now → ¬ s.Bears org r.name →
    r.kind = .future → r.Yields org agentId environmentId now m → ¬ s.HasMonitor m.id →
      Admission
        [⟨.plane (.agent org r.project r.agent), .ok agentId⟩,
          ⟨.plane (.environment org r.environment), .ok environmentId⟩,
          ⟨.store (.createMonitor m), .ok ()⟩]
        (.ok ⟨m, .active, none⟩) ⟨s.monitors ++ [m], s.runs⟩
  | rejected {agentId environmentId : String} {m : Monitor} {start stop : Timestamp} {id : Uuid}
      {e : PlaneError} : r.IsValid now → ¬ s.Bears org r.name → r.kind = .past →
    r.traceStart = some start → r.traceEnd = some stop →
    r.Yields org agentId environmentId now m → ¬ s.HasMonitor m.id →
      Admission
        [⟨.plane (.agent org r.project r.agent), .ok agentId⟩,
          ⟨.plane (.environment org r.environment), .ok environmentId⟩,
          ⟨.store (.createMonitor m), .ok ()⟩,
          ⟨.plane (.submit
            (Assignment.spec ⟨template, org, m, ⟨start, stop⟩, r.evaluators⟩ id)), .error e⟩,
          ⟨.store (.deleteMonitor m.id), .ok ()⟩]
        (.error (.plane e)) s
  | past {agentId environmentId : String} {m : Monitor} {start stop : Timestamp} {spec : JobSpec}
      {job : JobRef} {run : Run} : r.IsValid now → ¬ s.Bears org r.name → r.kind = .past →
    r.traceStart = some start → r.traceEnd = some stop →
    r.Yields org agentId environmentId now m → ¬ s.HasMonitor m.id →
    spec = Assignment.spec ⟨template, org, m, ⟨start, stop⟩, r.evaluators⟩ run.id →
    spec.Carries run → run.monitorId = m.id → run.window = ⟨start, stop⟩ →
    run.evaluators = r.evaluators → run.status = .pending → ¬ s.HasRun run.id →
      Admission
        [⟨.plane (.agent org r.project r.agent), .ok agentId⟩,
          ⟨.plane (.environment org r.environment), .ok environmentId⟩,
          ⟨.store (.createMonitor m), .ok ()⟩,
          ⟨.plane (.submit spec), .ok job⟩,
          ⟨.store (.createRun run), .ok ()⟩]
        (.ok ⟨m, .active, some run⟩) ⟨s.monitors ++ [m], s.runs ++ [run]⟩

end

/-! ## What is added to the store -/

/-- What has no identifier of the store is added at its end. -/
theorem Store.putMonitor_of_new {s : Store} {m : Monitor} (hnew : ¬ s.HasMonitor m.id) :
    s.putMonitor m = ⟨s.monitors ++ [m], s.runs⟩ := by
  have hnone : s.findMonitor m.id = none :=
    List.find?_eq_none.2 fun m' hm' hid => hnew ⟨m', hm', by simpa using hid⟩
  rw [putMonitor, hnone]
  rfl

/-- Looking up a name changes nothing. -/
theorem StoreCall.perform_findByName (clock : Timestamp) (s : Store) (org name : String) :
    StoreCall.perform clock s (.findByName org name) = (.ok (s.findByName org name), s) := rfl

/-- A monitor with a name and an identifier that are free is added at the end. -/
theorem StoreCall.createMonitor_of_new (clock : Timestamp) {s : Store} {m : Monitor}
    (hfree : s.findByName m.org m.name = none) (hnew : ¬ s.HasMonitor m.id) :
    StoreCall.perform clock s (.createMonitor m) = (.ok (), ⟨s.monitors ++ [m], s.runs⟩) := by
  rw [perform, Store.createMonitor, hfree, Option.isSome_none, if_neg Bool.false_ne_true,
    Store.putMonitor_of_new hnew]
  rfl

/-- A run of a stored monitor that has no identifier of the store is added at its end. -/
theorem StoreCall.createRun_of_new (clock : Timestamp) {s : Store} {r : Run}
    (hstored : s.HasMonitor r.monitorId) (hnew : ¬ s.HasRun r.id) :
    StoreCall.perform clock s (.createRun r) = (.ok (), ⟨s.monitors, s.runs ++ [r]⟩) := by
  have hfound : (s.findMonitor r.monitorId).isSome = true := by
    obtain ⟨m, hm, hid⟩ := hstored
    exact List.find?_isSome.2 ⟨m, hm, by simpa using hid⟩
  have hunused : s.findRun r.id = none :=
    List.find?_eq_none.2 fun r' hr' hid => hnew ⟨r', hr', by simpa using hid⟩
  simp only [perform, Store.createRun, hfound, if_true, Store.putRun, hunused, change]
  rfl

/-! ## The creation -/

/-- An execution that nobody disturbs, of a stored monitor and of at least one evaluator, submits
one job; if that is accepted its run is recorded, and if not nothing has happened. -/
theorem Assignment.plays_alone {x : Assignment} {s s' : Store} {moves : List Move}
    {result : Except MonitorError Run} (h : Plays x.operation.run moves result)
    (hrow : Chained s moves s') (hsome : x.evaluators ≠ []) (hstored : s.HasMonitor x.monitor.id)
    (hdraws : ∀ id before after, ⟨.freshId, id, before, after⟩ ∈ moves → ¬ s.HasRun id) :
    ∃ id, ¬ s.HasRun id ∧
      ((∃ e, effects moves = [⟨.plane (.submit (x.spec id)), .error e⟩] ∧ s' = s ∧
          result = .error (.plane e)) ∨
        ∃ job now, effects moves = [⟨.plane (.submit (x.spec id)), .ok job⟩,
            ⟨.store (.createRun (x.record id now)), .ok ()⟩] ∧
          s' = ⟨s.monitors, s.runs ++ [x.record id now]⟩ ∧ result = .ok (x.record id now)) := by
  rw [operation_run] at h
  obtain ⟨id, rest, rfl, h₁, hrow₁⟩ := h.of_idle_row hrow (by simp)
  have hnew := hdraws id s s (.head _)
  refine ⟨id, hnew, ?_⟩
  rw [if_neg fun hempty => hsome (List.isEmpty_iff.1 hempty)] at h₁
  obtain ⟨answer, rest, rfl, h₂, hrow₂⟩ := h₁.of_idle_row hrow₁ (by simp)
  cases answer with
  | error e =>
    obtain ⟨rfl, rfl⟩ := h₂.of_done
    exact .inl ⟨e, rfl, hrow₂, rfl⟩
  | ok job =>
    obtain ⟨now, rest, rfl, h₃, hrow₃⟩ := h₂.of_idle_row hrow₂ (by simp)
    obtain ⟨clock, rest, rfl, h₄, hrow₄⟩ := h₃.of_store_row hrow₃
    rw [StoreCall.createRun_of_new clock (r := x.record id now) hstored hnew] at h₄ hrow₄ ⊢
    obtain ⟨_, rest, rfl, h₅, hrow₅⟩ := h₄.of_idle_row hrow₄ (by simp)
    obtain ⟨rfl, rfl⟩ := h₅.of_done
    exact .inr ⟨job, now, rfl, hrow₅, rfl⟩

namespace Admission

variable {template org : String} {r : NewMonitor} {now : Timestamp} {s s' : Store}
  {es : List Exchange} {result : Except MonitorError MonitorView}

/-- A creation that goes in one of the ways succeeds exactly if the request is valid, its name is
free, and the plane has answered everything it has been asked. -/
theorem succeeds_iff (h : Admission template org r now s es result s') :
    (∃ shown, result = .ok shown) ↔ r.IsValid now ∧ ¬ s.Bears org r.name ∧
      ∀ c e, (⟨.plane c, .error e⟩ : Exchange) ∉ es := by
  have hfailed (e : MonitorError) : ¬ ∃ shown : MonitorView, Except.error e = .ok shown :=
    fun ⟨_, hshown⟩ => nomatch hshown
  cases h with
  | invalid hbroken =>
    obtain ⟨n, hbreaks, -⟩ := hbroken
    exact iff_of_false (hfailed _) fun ⟨hvalid, _⟩ => hvalid n _ hbreaks
  | taken _ htaken => exact iff_of_false (hfailed _) fun ⟨_, hfree, _⟩ => hfree htaken
  | @noAgent e =>
    exact iff_of_false (hfailed _) fun ⟨_, _, hanswered⟩ => hanswered _ e (.head _)
  | @noEnvironment agentId e =>
    exact iff_of_false (hfailed _) fun ⟨_, _, hanswered⟩ => hanswered _ e (.tail _ (.head _))
  | @rejected _ _ _ _ _ _ e =>
    exact iff_of_false (hfailed _) fun ⟨_, _, hanswered⟩ =>
      hanswered _ e (.tail _ (.tail _ (.tail _ (.head _))))
  | future hvalid hfree =>
    refine ⟨fun _ => ⟨hvalid, hfree, fun c e hmem => ?_⟩, fun _ => ⟨_, rfl⟩⟩
    simp only [List.mem_cons, List.not_mem_nil, or_false] at hmem
    rcases hmem with hmem | hmem | hmem <;> cases hmem
  | past hvalid hfree =>
    refine ⟨fun _ => ⟨hvalid, hfree, fun c e hmem => ?_⟩, fun _ => ⟨_, rfl⟩⟩
    simp only [List.mem_cons, List.not_mem_nil, or_false] at hmem
    rcases hmem with hmem | hmem | hmem | hmem | hmem <;> cases hmem

end Admission

namespace Service

variable {template org : String}

/-- A creation always comes to an end. -/
theorem create_returns (template org : String) (request : NewMonitor) :
    (create template org request).run.Returns := by
  rw [create_run]
  intro now
  dsimp only
  split
  · trivial
  rintro (_ | _ | _)
  · trivial
  · rintro (_ | agentId)
    · trivial
    rintro (_ | environmentId)
    · trivial
    intro id
    rintro (_ | _)
    · trivial
    dsimp only
    split
    · refine (Assignment.operation_returns _).bind fun ran => ?_
      cases ran with
      | error e => exact fun _ => trivial
      | ok run => trivial
    · trivial
  · trivial

/-- Once its monitor is in the store, a valid creation goes as it has to. -/
theorem launch_admits {r : NewMonitor} {agentId environmentId : String} {now : Timestamp}
    {m : Monitor} {s s' : Store} {moves : List Move} {result : Except MonitorError MonitorView}
    (hvalid : r.IsValid now) (hfree : ¬ s.Bears org r.name)
    (hyields : r.Yields org agentId environmentId now m) (hnew : ¬ s.HasMonitor m.id)
    (howned : ∀ run ∈ s.runs, s.HasMonitor run.monitorId)
    (h : Plays (launch template org m) moves result)
    (hrow : Chained ⟨s.monitors ++ [m], s.runs⟩ moves s')
    (hdraws : ∀ id before after, ⟨.freshId, id, before, after⟩ ∈ moves → ¬ s.HasRun id) :
    Admission template org r now s
      (⟨.plane (.agent org r.project r.agent), .ok agentId⟩ ::
        ⟨.plane (.environment org r.environment), .ok environmentId⟩ ::
        ⟨.store (.createMonitor m), .ok ()⟩ :: effects moves) result s' := by
  cases hkind : r.kind with
  | future =>
    obtain ⟨hstart, -⟩ := hvalid.traces_eq_none hkind
    have hstatus : m.status none = .active := by
      simp only [Monitor.status, hyields.kind, hyields.nextRun, hkind]
      rfl
    rw [launch, hyields.traceStart, hstart] at h
    obtain ⟨rfl, rfl⟩ := h.of_done
    obtain rfl : s' = ⟨s.monitors ++ [m], s.runs⟩ := hrow
    rw [hstatus]
    exact .future hvalid hfree hkind hyields hnew
  | past =>
    obtain ⟨start, stop, hstart, hstop⟩ := hvalid.exists_window hkind
    rw [launch, hyields.traceStart, hyields.traceEnd, hstart, hstop, hyields.evaluators] at h
    obtain ⟨first, second, ran, rfl, hrun, h⟩ := h.of_bind
    obtain ⟨s₁, hfirst, hsecond⟩ := hrow.of_append
    rw [effects_append]
    have hstored : Store.HasMonitor ⟨s.monitors ++ [m], s.runs⟩ m.id :=
      ⟨m, List.mem_append_right _ (.head _), rfl⟩
    obtain ⟨id, hunused, ⟨e, heffects, rfl, rfl⟩ | ⟨job, clock, heffects, rfl, rfl⟩⟩ :=
      Assignment.plays_alone hrun hfirst hvalid.evaluators_ne hstored fun id before after hmem =>
        hdraws id before after (List.mem_append_left _ hmem)
    · -- the monitor is taken back, and nothing else goes with it
      obtain ⟨_, rest, rfl, hlast, hend⟩ := h.of_store_row hsecond
      obtain ⟨rfl, rfl⟩ := hlast.of_done
      obtain rfl : s' = _ := hend
      have hback : Store.deleteMonitor ⟨s.monitors ++ [m], s.runs⟩ m.id = s := by
        rw [← Store.putMonitor_of_new hnew]
        exact Store.deleteMonitor_putMonitor hnew howned
      rw [heffects, show (StoreCall.perform _ _ (.deleteMonitor m.id)).2 = s from hback]
      exact .rejected hvalid hfree hkind hstart hstop hyields hnew
    · obtain ⟨rfl, rfl⟩ := h.of_done
      obtain rfl : s' = _ := hsecond
      have hstatus : m.status (some .pending) = .active := by
        simp only [Monitor.status, hyields.kind, hkind]
      rw [heffects]
      dsimp only [Assignment.record, Run.pending]
      rw [hstatus]
      exact .past hvalid hfree hkind hstart hstop hyields hnew rfl (Assignment.spec_carries _ _ _)
        rfl rfl rfl rfl hunused

/-- A creation that nobody disturbs reads the clock first, and then it goes in one of the ways that
there are for its request at that instant. -/
theorem create_goes {request : NewMonitor} {s s' : Store} {moves : List Move}
    {result : Except MonitorError MonitorView} (hs : s.IsConsistent)
    (h : Plays (create template org request).run moves result) (hrow : Chained s moves s')
    (hdraws : DrawsNew s moves) :
    ∃ now rest, moves = ⟨.now, now, s, s⟩ :: rest ∧
      Admission template org request.truncate now s (effects moves) result s' := by
  have howned : ∀ run ∈ s.runs, s.HasMonitor run.monitorId := hs.owned
  rw [create_run] at h
  obtain ⟨now, rest, rfl, h₁, hrow₁⟩ := h.of_idle_row hrow (by simp)
  refine ⟨now, rest, rfl, ?_⟩
  dsimp only at h₁
  cases hcheck : request.truncate.check now with
  | error v =>
    rw [hcheck] at h₁
    obtain ⟨rfl, rfl⟩ := h₁.of_done
    obtain rfl : s' = s := hrow₁
    exact .invalid (NewMonitor.check_eq_error.1 hcheck)
  | ok =>
    have hvalid := NewMonitor.check_eq_ok_iff_isValid.1 hcheck
    rw [hcheck] at h₁
    obtain ⟨_, rest, rfl, h₂, hrow₂⟩ := h₁.of_store_row hrow₁
    rw [StoreCall.perform_findByName] at h₂ hrow₂
    dsimp only at h₂ hrow₂
    cases hfind : s.findByName org request.truncate.name with
    | some found =>
      obtain ⟨horg, hname⟩ := Store.named_of_findByName hfind
      rw [hfind] at h₂
      obtain ⟨rfl, rfl⟩ := h₂.of_done
      obtain rfl : s' = s := hrow₂
      exact .taken hvalid ⟨found, List.mem_of_find?_eq_some hfind, horg, hname⟩
    | none =>
      have hfree : ¬ s.Bears org request.truncate.name := fun ⟨m, hm, horg, hname⟩ =>
        Store.name_ne_of_findByName hfind hm horg hname
      rw [hfind] at h₂
      obtain ⟨agentId, rest, rfl, h₃, hrow₃⟩ := h₂.of_idle_row hrow₂ (by simp)
      cases agentId with
      | error e =>
        obtain ⟨rfl, rfl⟩ := h₃.of_done
        obtain rfl : s' = s := hrow₃
        exact .noAgent hvalid hfree
      | ok agentId =>
        obtain ⟨environmentId, rest, rfl, h₄, hrow₄⟩ := h₃.of_idle_row hrow₃ (by simp)
        cases environmentId with
        | error e =>
          obtain ⟨rfl, rfl⟩ := h₄.of_done
          obtain rfl : s' = s := hrow₄
          exact .noEnvironment hvalid hfree
        | ok environmentId =>
          obtain ⟨id, rest, rfl, h₅, hrow₅⟩ := h₄.of_idle_row hrow₄ (by simp)
          obtain ⟨hnew, -⟩ := hdraws id s s (by simp)
          obtain ⟨clock, rest, rfl, h₆, hrow₆⟩ := h₅.of_store_row hrow₅
          rw [StoreCall.createMonitor_of_new clock hfind hnew] at h₆ hrow₆ ⊢
          exact launch_admits hvalid hfree (NewMonitor.yields_toMonitor _ _ _ _ _ _) hnew howned
            h₆ hrow₆ fun id before after hmem => (hdraws id before after (by simp [hmem])).2

/-- A creation that nobody disturbs comes to an end, and goes in one of the ways that there are for
its request, with the window cut to whole seconds, at the instant that it reads first. It succeeds
exactly if the request is valid then, its name is free, and the plane answers what it is asked. -/
theorem create_admits (template org : String) (request : NewMonitor) :
    (create template org request).run.Returns ∧
      ∀ s moves s' result, s.IsConsistent →
        Plays (create template org request).run moves result → Chained s moves s' →
        DrawsNew s moves →
          ∃ now rest, moves = ⟨.now, now, s, s⟩ :: rest ∧
            Admission template org request.truncate now s (effects moves) result s' ∧
            ((∃ shown, result = .ok shown) ↔
              request.truncate.IsValid now ∧ ¬ s.Bears org request.name ∧
                ∀ c e, (⟨.plane c, .error e⟩ : Exchange) ∉ effects moves) := by
  refine ⟨create_returns template org request, fun s moves s' result hs h hrow hdraws => ?_⟩
  obtain ⟨now, rest, hmoves, hadmission⟩ := create_goes hs h hrow hdraws
  exact ⟨now, rest, hmoves, hadmission, hadmission.succeeds_iff⟩

/-- A past monitor is created beside another, over an hour that has elapsed to the second. -/
def elapsedHour : Store × List Move × MonitorView :=
  let s : Store := ⟨[.hourly 1000 "tone" ⟨3600, 0⟩], []⟩
  let r := (NewMonitor.tone "care" (some ⟨⟨0, 5⟩, ⟨3600, 5⟩⟩)).truncate
  let m := r.toMonitor ⟨1⟩ "acme" "agent-1" "environment-1" ⟨3600, 0⟩
  let x : Assignment := ⟨"evaluation", "acme", m, ⟨⟨0, 0⟩, ⟨3600, 0⟩⟩, r.evaluators⟩
  let run := x.record ⟨2⟩ ⟨3601, 0⟩
  let created : Store := ⟨s.monitors ++ [m], s.runs⟩
  let recorded : Store := ⟨s.monitors ++ [m], [run]⟩
  let moves : List Move :=
    [⟨.now, ⟨3600, 0⟩, s, s⟩, ⟨.store (.findByName "acme" "care"), .ok none, s, s⟩,
      ⟨.plane (.agent "acme" "support" "helper"), .ok "agent-1", s, s⟩,
      ⟨.plane (.environment "acme" "production"), .ok "environment-1", s, s⟩,
      ⟨.freshId, ⟨1⟩, s, s⟩, ⟨.store (.createMonitor m), .ok (), s, created⟩,
      ⟨.freshId, ⟨2⟩, created, created⟩,
      ⟨.plane (.submit (x.spec ⟨2⟩)), .ok (.run "acme" run.jobName), created, created⟩,
      ⟨.now, ⟨3601, 0⟩, created, created⟩, ⟨.store (.createRun run), .ok (), created, recorded⟩,
      ⟨.count .runSubmitted, (), recorded, recorded⟩]
  (recorded, moves, ⟨m, .active, some run⟩)

/-- Of a creation over an hour that ends at the very second of its first reading of the clock. -/
theorem create_admits_elapsedHour :
    let s : Store := ⟨[.hourly 1000 "tone" ⟨3600, 0⟩], []⟩
    let request := NewMonitor.tone "care" (some ⟨⟨0, 5⟩, ⟨3600, 5⟩⟩)
    let (s', moves, shown) := elapsedHour
    s.IsConsistent ∧ Plays (create "evaluation" "acme" request).run moves (.ok shown) ∧
      Chained s moves s' ∧ DrawsNew s moves ∧
      ∃ now rest, moves = ⟨.now, now, s, s⟩ :: rest ∧
        Admission "evaluation" "acme" request.truncate now s (effects moves) (.ok shown) s' ∧
        request.truncate.IsValid now := by
  intro s request
  have hcheck : request.truncate.check ⟨3600, 0⟩ = .ok () := by decide +kernel
  have hplays : Plays (create "evaluation" "acme" request).run elapsedHour.2.1
      (.ok elapsedHour.2.2) := by
    rw [create_run]
    refine .call rfl ?_
    dsimp only
    rw [hcheck]
    refine .call ⟨⟨0, 0⟩, ?_⟩ (.call rfl (.call rfl (.call rfl (.call ⟨⟨0, 0⟩, ?_⟩ ?_))))
    · rfl
    · rfl
    · change Plays (Program.bind (Assignment.operation _).run _) _ _
      rw [Assignment.operation_run]
      exact .call rfl (.call rfl (.call rfl (.call ⟨⟨0, 0⟩, rfl⟩ (.call rfl (.done _)))))
  have hconsistent : s.IsConsistent := by
    refine ⟨List.nodup_singleton _, fun m hm m' hm' _ _ => ?_, List.forall_mem_nil _⟩
    rw [List.mem_singleton.1 hm, List.mem_singleton.1 hm']
  have hrow : Chained s elapsedHour.2.1 elapsedHour.1 :=
    ⟨rfl, rfl, rfl, rfl, rfl, rfl, rfl, rfl, rfl, rfl, rfl, rfl⟩
  have hdraws : DrawsNew s elapsedHour.2.1 := by
    intro id before after hmem
    have hid : id = ⟨1⟩ ∨ id = ⟨2⟩ := by
      simp [elapsedHour] at hmem
      exact hmem.imp And.left And.left
    refine ⟨fun ⟨m, hm, heq⟩ => ?_, fun ⟨_, hr, _⟩ => absurd hr List.not_mem_nil⟩
    obtain rfl := List.mem_singleton.1 hm
    rcases hid with rfl | rfl <;> exact absurd heq (by decide)
  obtain ⟨now, rest, hmoves, hadmission, hsucceeds⟩ :=
    (create_admits "evaluation" "acme" request).2 s _ _ _ hconsistent hplays hrow hdraws
  exact ⟨hconsistent, hplays, hrow, hdraws, now, rest, hmoves, hadmission,
    (hsucceeds.1 ⟨_, rfl⟩).1⟩

end Service

end TraceWatch
