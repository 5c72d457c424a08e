import TraceWatch.Proofs.Runs.Submission
import TraceWatch.Proofs.Schedule.Calendar
import TraceWatch.Proofs.Store.Consistency

/-!
# Runs look back

A run is about traces that are there: its window has ended when its job is submitted. There are
three ways to such a window. A cycle plans it and keeps a margin (`Plan.make_hasElapsed`), a
creation is given one and checks it (`Monitor.IsWellFormed.hasElapsed`), and who carries out a run
again takes that of the run. None of them looks at the clock between then and the submission; so
what a task holds is timely (`Phase.IsTimely`) as of any instant that the clock has come to since,
and it stays so if the clock is never set back.
-/

namespace TraceWatch

/-! ## Windows that have ended -/

namespace Timestamp

theorem le_refl (t : Timestamp) : t ≤ t := .inr ⟨rfl, Nat.le_refl _⟩

theorem le_trans {s t u : Timestamp} (hst : s ≤ t) (htu : t ≤ u) : s ≤ u := by
  rw [le_def] at *
  omega

theorem le_total (s t : Timestamp) : s ≤ t ∨ t ≤ s := by
  rw [le_def, le_def]
  omega

/-- A clock may have shown the instant before it has come to the other. -/
structure HasCome (t now : Timestamp) : Prop where
  proper : t.IsProper
  le : t ≤ now

theorem HasCome.mono {t now later : Timestamp} (h : t.HasCome now) (hlater : now ≤ later) :
    t.HasCome later :=
  ⟨h.proper, le_trans h.le hlater⟩

end Timestamp

/-- The window is one of whole seconds, it is not empty, and it has ended at the instant. -/
structure Window.HasElapsed (w : Window) (now : Timestamp) : Prop where
  start : w.start.IsWhole
  stop : w.stop.IsWhole
  nonempty : w.start < w.stop
  ended : w.stop ≤ now

theorem Window.HasElapsed.mono {w : Window} {now later : Timestamp} (h : w.HasElapsed now)
    (hlater : now ≤ later) : w.HasElapsed later :=
  { h with ended := Timestamp.le_trans h.ended hlater }

/-- There are evaluators, they have identifiers, and no two of them have the same. -/
structure Evaluator.AreValid (es : List Evaluator) : Prop where
  nonempty : es ≠ []
  identified : ∀ e ∈ es, Text.isBlank e.identifier = false
  distinct : (es.map Evaluator.identifier).Nodup

/-- The window that is planned for a monitor that is due has ended. -/
theorem Plan.make_hasElapsed {u now : Timestamp} {i : Int} {plan : Plan} (hu : u.IsProper)
    (hnow : now.IsProper) (hi : 5 ≤ i) (hdue : u ≤ now)
    (h : make (some u) (some i) now = .ok (some plan)) : plan.window.HasElapsed now := by
  obtain ⟨hpos, hstart, hstop, -⟩ := make_eq h
  refine ⟨?_, ?_, make_nonempty hu hnow hi hdue h, ?_⟩
  · rw [hstart]
    exact Timestamp.truncate_isWhole _
  · rw [hstop]
    exact Timestamp.truncate_isWhole _
  · have hmargin := one_le_marginMinutes hpos
    obtain ⟨-, hfloor⟩ := hnow.floor_bounds
    rw [hstop, Timestamp.truncate_move_back hnow hmargin, Timestamp.le_def]
    exact .inl (show now.floor - 60 * marginMinutes i < now.second by omega)

/-- The monitor had been created by the instant, and it is due at a proper one. -/
structure Monitor.IsTimely (m : Monitor) (now : Timestamp) : Prop where
  created : m.createdAt ≤ now
  nextRun : ∀ t ∈ m.nextRun, t.IsProper

namespace Monitor.IsWellFormed

variable {m : Monitor} {now : Timestamp}

theorem areValid (h : m.IsWellFormed) : Evaluator.AreValid m.evaluators :=
  ⟨h.evaluators, h.identifiers, h.distinct⟩

/-- The window that a monitor was created with had ended then. -/
theorem hasElapsed (h : m.IsWellFormed) {start stop : Timestamp}
    (hstart : m.traceStart = some start) (hstop : m.traceEnd = some stop) :
    Window.HasElapsed ⟨start, stop⟩ m.createdAt := by
  cases hkind : m.kind with
  | future => cases hstart.symm.trans (h.future hkind).2.1
  | past =>
    obtain ⟨-, -, _, _, hstart', hstop', hwhole, hwhole', hlt, hle⟩ := h.past hkind
    cases hstart'.symm.trans hstart
    cases hstop'.symm.trans hstop
    exact ⟨hwhole, hwhole', hlt, hle⟩

/-- What is planned for a monitor that is due is a window that has ended, and a next run at a proper
instant. -/
theorem plan (h : m.IsWellFormed) (hnext : ∀ t ∈ m.nextRun, t.IsProper) (hnow : now.IsProper)
    (hdue : m.isDue now = true) {plan : Plan}
    (hplan : Plan.make m.nextRun m.interval now = .ok (some plan)) :
    plan.window.HasElapsed now ∧ plan.nextRun.IsProper := by
  obtain ⟨u, i, hu, hi⟩ := Plan.exists_of_make hplan
  rw [isDue, Bool.and_eq_true, hu, Option.any_some, decide_eq_true_eq] at hdue
  obtain ⟨⟨_, hi', hlong⟩, -⟩ := h.future (isFuture_iff.1 hdue.1)
  cases hi.symm.trans hi'
  rw [hu, hi] at hplan
  exact ⟨Plan.make_hasElapsed (hnext u hu) hnow hlong hdue.2 hplan, (Plan.make_next hnow hplan).1⟩

end Monitor.IsWellFormed

/-! ## Runs and jobs -/

/-- The window of the run had ended when the run was recorded, and its evaluators can be told
apart. -/
structure Run.IsWellFormed (r : Run) : Prop where
  window : r.window.HasElapsed r.createdAt
  evaluators : Evaluator.AreValid r.evaluators

/-- The run is well-formed and had been recorded by the instant. -/
structure Run.IsTimely (r : Run) (now : Timestamp) : Prop extends r.IsWellFormed where
  created : r.createdAt ≤ now

theorem Run.IsTimely.mono {r : Run} {now later : Timestamp} (h : r.IsTimely now)
    (hlater : now ≤ later) : r.IsTimely later :=
  { h with created := Timestamp.le_trans h.created hlater }

/-- An execution is to evaluate a window that has ended, with evaluators that can be told apart. -/
structure Assignment.IsTimely (x : Assignment) (now : Timestamp) : Prop where
  window : x.window.HasElapsed now
  evaluators : Evaluator.AreValid x.evaluators

theorem Assignment.IsTimely.mono {x : Assignment} {now later : Timestamp} (h : x.IsTimely now)
    (hlater : now ≤ later) : x.IsTimely later :=
  ⟨h.window.mono hlater, h.evaluators⟩

/-- What is submitted is to evaluate a window that has ended, with evaluators that can be told
apart. -/
def JobSpec.LooksBack (spec : JobSpec) (now : Timestamp) : Prop :=
  ∃ (window : Window) (evaluators : List Evaluator),
    spec.parameters.traceStart = window.start.renderSeconds ∧
    spec.parameters.traceEnd = window.stop.renderSeconds ∧
    spec.parameters.evaluators = (Evaluator.listToJson evaluators).render ∧
    window.HasElapsed now ∧ Evaluator.AreValid evaluators

/-! ## What a task holds -/

/-- A trigger has read the clock, its schedule is to be moved to a proper instant, and the monitors
still to come were due when it read the clock. -/
def Purpose.IsTimely (now : Timestamp) : Purpose → Prop
  | trigger t rest next => t.HasCome now ∧ (∀ m ∈ rest, m.isDue t = true) ∧ next.IsProper
  | initial | rerun => True

theorem Purpose.IsTimely.mono {k : Purpose} {now later : Timestamp} (h : k.IsTimely now)
    (hlater : now ≤ later) : k.IsTimely later := by
  cases k with
  | trigger => exact ⟨h.1.mono hlater, h.2⟩
  | initial | rerun => trivial

namespace Phase

/-- The task has read the clock by the instant and goes by what was due or had ended then. -/
def IsTimely (now : Timestamp) : Phase → Prop
  | timed t | dated t | poised _ t => t.HasCome now
  | rounds t due => t.HasCome now ∧ ∀ m ∈ due, m.isDue t = true
  | advancing t rest _ next => t.HasCome now ∧ (∀ m ∈ rest, m.isDue t = true) ∧ next.IsProper
  | submitting k x _ | accepted k x _ _ | refused k x _ _ => k.IsTimely now ∧ x.IsTimely now
  | stamped k x _ _ t => k.IsTimely now ∧ t ≤ now ∧ x.IsTimely t
  | chosen _ r => r.IsTimely now
  | _ => True

variable {φ : Phase} {k : Purpose} {x : Assignment} {now later : Timestamp}

theorem IsTimely.mono (h : φ.IsTimely now) (hlater : now ≤ later) : φ.IsTimely later := by
  cases φ with
  | timed | dated | poised => exact Timestamp.HasCome.mono h hlater
  | rounds | advancing => exact ⟨h.1.mono hlater, h.2⟩
  | submitting | accepted | refused => exact ⟨h.1.mono hlater, h.2.mono hlater⟩
  | stamped => exact ⟨h.1.mono hlater, Timestamp.le_trans h.2.1 hlater, h.2.2⟩
  | chosen => exact Run.IsTimely.mono h hlater
  | _ => trivial

theorem isTimely_afterRecord (h : k.IsTimely now) : (k.afterRecord x).IsTimely now := by
  cases k with
  | trigger => exact h
  | initial | rerun => trivial

theorem isTimely_afterFailure (h : k.IsTimely now) : (k.afterFailure x).IsTimely now := by
  cases k with
  | trigger => exact ⟨h.1, h.2.1⟩
  | initial | rerun => trivial

/-- A task has a monitor due at proper instants only. -/
theorem IsTimely.of_sets (h : φ.IsTimely now) {t : Timestamp} (ht : φ.Sets t) : t.IsProper := by
  cases φ with
  | dated | poised => exact ht ▸ h.proper
  | advancing => exact ht ▸ h.2.2
  | _ => exact False.elim ht

end Phase

/-! ## Every step -/

namespace Scene

/-- The clock shows a proper instant, and what is stored, known and held is timely as of it. -/
structure IsTimely (s : Scene) : Prop where
  clock : s.commons.clock.IsProper
  known : ∀ m, s.Knows m → m.IsTimely s.commons.clock
  runs : ∀ r ∈ s.commons.store.runs, r.IsTimely s.commons.clock
  phase : ∀ k, (s.phase k).IsTimely s.commons.clock

section

variable {w w' : Commons} {g : Nat → Phase} {k : Nat} {a : Activity} {c : Call}
  {answer : c.Answer} {φ : Phase}

/-- What a task goes by after a call is timely: what it reads, what it plans, what it takes from a
monitor and what it takes from a run. -/
theorem IsTimely.passage (h : IsTimely ⟨w, g⟩) (hs : Reachable ⟨w, g⟩)
    (hpassage : Passage a (g k) c answer φ) (hw : w.Answers k c answer w') :
    φ.IsTimely w.clock := by
  have hphase : (g k).IsTimely w.clock := h.phase k
  have hknown : ∀ m ∈ (g k).monitors, Knows ⟨w, g⟩ m := fun m hm => .inr ⟨k, hm⟩
  generalize g k = ψ at hpassage hphase hknown
  cases hpassage with
  | read | waste | tally | submit => exact hphase
  | pause | time | date =>
    obtain ⟨rfl, -⟩ := hw
    exact ⟨h.clock, Timestamp.le_refl _⟩
  | snapshot => exact ⟨hphase, fun m hm => (hw.mem_of_dueMonitors hm).2⟩
  | @aim _ now passed rest m plan _ hplan =>
    have hm : m ∈ passed ++ m :: rest := List.mem_append_right _ (.head _)
    obtain ⟨hcome, hdue⟩ := hphase
    have hwell : m.IsWellFormed := hs.isWellFormed m (hknown m hm)
    have htimely : m.IsTimely w.clock := h.known m (hknown m hm)
    obtain ⟨hwindow, hnext⟩ := hwell.plan htimely.nextRun hcome.proper (hdue m hm) hplan
    exact ⟨⟨hcome, fun m' hm' => hdue m' (List.mem_append_right _ (.tail _ hm')), hnext⟩,
      hwindow.mono hcome.le, hwell.areValid⟩
  | advance => exact ⟨hphase.1, hphase.2.1⟩
  | stamp =>
    obtain ⟨rfl, -⟩ := hw
    exact ⟨hphase.1, Timestamp.le_refl _, hphase.2⟩
  | record => exact Phase.isTimely_afterRecord hphase.1
  | refuse => exact ⟨hphase.1, hphase.2.2.mono hphase.2.1⟩
  | reject | compensate => exact Phase.isTimely_afterFailure hphase.1
  | @begin _ _ _ m _ _ _ hstart hstop =>
    have hm : Knows ⟨w, g⟩ m := hknown m (.head _)
    have hwell : m.IsWellFormed := hs.isWellFormed m hm
    exact ⟨trivial, (hwell.hasElapsed hstart hstop).mono (h.known m hm).created, hwell.areValid⟩
  | @choose _ _ _ _ r =>
    have hfind : w.store.findRun r.id = some r := (Except.ok.inj hw.1).symm
    exact h.runs r (List.mem_of_find?_eq_some hfind)
  | again => exact ⟨trivial, hphase.window.mono hphase.created, hphase.evaluators⟩
  | _ => trivial

/-- A run that is stored after a call is timely: it was stored before, or it has just been recorded
by an execution that had read the clock. -/
theorem IsTimely.run_of_call (h : IsTimely ⟨w, g⟩) (hpassage : Passage a (g k) c answer φ)
    (hw : w.Answers k c answer w') {r' : Run} (hr' : r' ∈ w'.store.runs) :
    r'.IsTimely w.clock := by
  rcases hw.mem_runs hr' with rfl | ⟨r, hr, rfl | ⟨d, rfl, hobserves⟩⟩
  · obtain ⟨_, x, id, job, now, hstamped, rfl, -⟩ := hpassage.createRun
    have hphase : (g k).IsTimely w.clock := h.phase k
    rw [hstamped] at hphase
    obtain ⟨-, hle, hx⟩ := hphase
    exact ⟨⟨hx.window, hx.evaluators⟩, hle⟩
  · exact h.runs r' hr
  · have hr : r.IsTimely w.clock := h.runs r hr
    cases hobserves with
    | same => exact hr
    | status => exact ⟨⟨hr.window, hr.evaluators⟩, hr.created⟩

end

/-- A monitor that is known after a step had been created by then, if the clock has not been set
back. -/
theorem IsTimely.created {s s' : Scene} {e : Event} (h : s.IsTimely) (hstep : Step s e s')
    (hlater : s.commons.clock ≤ s'.commons.clock) {m' : Monitor} (hm' : s'.Knows m') :
    m'.createdAt ≤ s'.commons.clock := by
  refine Timestamp.le_trans ?_ hlater
  rcases hstep.knows hm' with ⟨m, hm, horigin⟩ | hdrafts
  · have hsame : m.createdAt = m'.createdAt := congrArg Origin.createdAt horigin
    exact hsame ▸ (h.known m hm).created
  · obtain ⟨k, _, _, _, _, _, now, _, _, _, -, hdated, -, rfl⟩ := hdrafts.exists_request hstep
    have hphase := h.phase k
    rw [hdated] at hphase
    exact hphase.le

/-- Everything stays timely as long as the clock shows proper instants and is not set back. -/
theorem IsTimely.step {s s' : Scene} {e : Event} (h : s.IsTimely) (hs : s.Reachable)
    (hstep : Step s e s') (hlater : s.commons.clock ≤ s'.commons.clock)
    (hproper : s'.commons.clock.IsProper) : s'.IsTimely := by
  refine ⟨hproper, fun m' hm' => ⟨h.created hstep hlater hm', fun t ht => ?_⟩, fun r hr => ?_,
    fun k => ?_⟩
  · rcases hstep.exists_due hm' ht with ⟨m, hm, hdue⟩ | ⟨k, hsets⟩
    · exact (h.known m hm).nextRun t hdue
    · exact (h.phase k).of_sets hsets
  · refine Run.IsTimely.mono ?_ hlater
    rcases hstep.call_or_rests with ⟨i, a, c, answer, rfl⟩ | ⟨-, hrests⟩
    · cases hstep with
      | call hpassage hw => exact h.run_of_call hpassage hw hr
    · exact h.runs r (hrests.store ▸ hr)
  · refine Phase.IsTimely.mono ?_ hlater
    rcases hstep.call_or_rests with ⟨i, a, c, answer, rfl⟩ | ⟨-, hrests⟩
    · cases hstep with
      | call hpassage hw =>
        exact Phase.to_update (Phase.IsTimely _) (fun _ => h.passage hs hpassage hw)
          fun _ => h.phase k
    · exact hrests.to_phase (P := Phase.IsTimely _) trivial (h.phase k)

end Scene

/-! ## Clocks -/

/-- The instant that the clock is set to, if that is what happens. -/
def Event.tick? : Event → Option Timestamp
  | tick t => some t
  | _ => none

/-- What a clock shows one after the other, if it has been set to an instant when it all begins. -/
def readings (first : Timestamp) (es : List Event) : List Timestamp :=
  first :: es.filterMap Event.tick?

/-- The clock shows proper instants, and it is never set back. -/
structure KeepsTime (first : Timestamp) (es : List Event) : Prop where
  proper : ∀ t ∈ readings first es, t.IsProper
  forwards : (readings first es).Pairwise (· ≤ ·)

instance (first : Timestamp) (es : List Event) : Decidable (KeepsTime first es) :=
  decidable_of_iff ((∀ t ∈ readings first es, t.IsProper) ∧ (readings first es).Pairwise (· ≤ ·))
    ⟨fun ⟨hproper, hforwards⟩ => ⟨hproper, hforwards⟩, fun h => ⟨h.proper, h.forwards⟩⟩

section

variable {first : Timestamp} {es es' : List Event}

theorem readings_append :
    readings first (es ++ es') = readings first es ++ es'.filterMap Event.tick? := by
  rw [readings, List.filterMap_append, ← List.cons_append, readings]

/-- A clock has kept time up to each moment if it does so up to a later one. -/
theorem KeepsTime.left (h : KeepsTime first (es ++ es')) : KeepsTime first es where
  proper := fun t ht => h.proper t (readings_append ▸ List.mem_append_left _ ht)
  forwards := (List.pairwise_append.1 (readings_append ▸ h.forwards)).1

end

namespace Scene

variable {w : Commons} {s s' : Scene} {es : List Event} {e : Event}

/-- The clock shows one of its readings. -/
theorem History.clock_mem (h : (ofCommons w).History es s) :
    s.commons.clock ∈ readings w.clock es := by
  induction h with
  | nil => exact .head _
  | snoc _ hstep ih =>
    rw [readings_append]
    refine hstep.clock (P := (· ∈ _)) ?_ (List.mem_append_left _ ih)
    rintro t rfl
    exact List.mem_append_right _ (.head _)

/-- A clock that keeps time shows a proper instant after each event, and none before the one it has
shown. -/
theorem History.clock_le (h : (ofCommons w).History es s) (hstep : Step s e s')
    (htime : KeepsTime w.clock (es ++ [e])) :
    s.commons.clock ≤ s'.commons.clock ∧ s'.commons.clock.IsProper := by
  have hmem : s.commons.clock ∈ readings w.clock es := h.clock_mem
  refine hstep.clock (P := fun t => s.commons.clock ≤ t ∧ t.IsProper) ?_
    ⟨Timestamp.le_refl _, htime.left.proper _ hmem⟩
  rintro t rfl
  have hforwards := htime.forwards
  rw [readings_append, List.pairwise_append] at hforwards
  refine ⟨hforwards.2.2 _ hmem t (.head _), htime.proper t ?_⟩
  rw [readings_append]
  exact List.mem_append_right _ (.head _)

/-- Everything is timely after a history that begins with an empty store, under a clock that keeps
time. -/
theorem History.isTimely (hstore : w.store = .empty) (hholder : w.holder = none)
    (h : (ofCommons w).History es s) (htime : KeepsTime w.clock es) : s.IsTimely := by
  induction h with
  | nil =>
    refine ⟨htime.proper _ (.head _), fun m hm => ?_, fun r hr => ?_, fun _ => trivial⟩
    · rcases hm with hstored | ⟨k, hknown⟩
      · exact absurd (hstore ▸ hstored) List.not_mem_nil
      · exact absurd hknown List.not_mem_nil
    · exact absurd (hstore ▸ hr) List.not_mem_nil
  | snoc hbefore hstep ih =>
    obtain ⟨hlater, hproper⟩ := hbefore.clock_le hstep htime
    exact (ih htime.left).step ⟨w, _, hstore, hholder, hbefore⟩ hstep hlater hproper

/-! ## What is submitted -/

/-- In every reachable scene executions work in the organizations of their monitors. -/
theorem Reachable.homed (hs : s.Reachable) : ∀ k, (s.phase k).Homed := by
  refine hs.invariant (I := fun s => ∀ k, (s.phase k).Homed) (fun _ _ _ _ => trivial) ?_
  intro s e s' _ ih hstep k
  rcases hstep.call_or_rests with ⟨i, a, c, answer, rfl⟩ | ⟨-, hrests⟩
  · cases hstep with
    | call hpassage _ =>
      exact Phase.to_update Phase.Homed (fun _ => hpassage.homed (ih i)) fun _ => ih k
  · exact hrests.to_phase trivial (ih k)

/-- A job is submitted by an execution that has drawn the identifier of its run. -/
theorem Step.exists_submitting {k : Nat} {a : Activity} {spec : JobSpec}
    {answer : Except PlaneError JobRef}
    (h : Step s (.call k a (.plane (.submit spec)) answer) s') :
    ∃ purpose x id, s.phase k = .submitting purpose x id ∧ spec = x.spec id := by
  cases h with
  | call hpassage _ =>
    obtain ⟨purpose, x, id, hk, hspec, -⟩ := hpassage.submit_inv
    exact ⟨purpose, x, id, hk, hspec⟩

/-- A job that has been submitted for a monitor has been submitted in the organization of the
monitor. -/
theorem History.space_eq (hstore : w.store = .empty) (hholder : w.holder = none)
    (h : (ofCommons w).History es s) {m : Monitor} (hm : s.Knows m) {spec : JobSpec} {k : Nat}
    {a : Activity} {answer : Except PlaneError JobRef}
    (hsubmitted : .call k a (.plane (.submit spec)) answer ∈ es)
    (hmonitor : spec.parameters.monitorId = m.id.render) : spec.space = m.org := by
  obtain ⟨es₁, s₁, s₂, es₂, rfl, hbefore, hstep, hafter⟩ := h.of_mem hsubmitted
  have hs₁ : s₁.Reachable := ⟨w, es₁, hstore, hholder, hbefore⟩
  have hlater : s₁.History (_ :: es₂) s := (History.snoc .nil hstep).append hafter
  obtain ⟨purpose, x, id, hk, rfl⟩ := hstep.exists_submitting
  have hx : s₁.Knows x.monitor := .inr ⟨k, by rw [hk]; exact .head _⟩
  have hhomed : (s₁.phase k).Homed := hs₁.homed k
  rw [hk] at hhomed
  have horigin : m.origin = x.monitor.origin :=
    ((hs₁.fixes _ hx).history hlater).known m hm (Uuid.render_injective hmonitor).symm
  exact hhomed.trans (congrArg Origin.org horigin).symm

/-- A job that is submitted is over a window that has ended. -/
theorem IsTimely.looksBack (h : s.IsTimely) {k : Nat} {a : Activity} {spec : JobSpec}
    {answer : Except PlaneError JobRef}
    (hstep : Step s (.call k a (.plane (.submit spec)) answer) s') :
    spec.LooksBack s.commons.clock := by
  obtain ⟨purpose, x, id, hk, rfl⟩ := hstep.exists_submitting
  have hphase := h.phase k
  rw [hk] at hphase
  obtain ⟨-, hwindow, hevaluators⟩ := hphase
  exact ⟨x.window, x.evaluators, rfl, rfl, rfl, hwindow, hevaluators⟩

end Scene

/-! ## The statement -/

/-- After what has happened, the runs of a site look back, and so does the next job. -/
structure Site.LooksBack (s : Site) (es : List Event) : Prop where
  /-- The window of a stored run is one of whole seconds, is not empty and had ended when the run
  was recorded; it has evaluators, with identifiers that are different and not blank. -/
  stored : ∀ r ∈ s.commons.store.runs, r.IsWellFormed
  /-- Its monitor is stored, and in the organization of that the one job that has been submitted for
  the run has been. -/
  submitted : ∀ r ∈ s.commons.store.runs, ∃ m ∈ s.commons.store.monitors, m.id = r.monitorId ∧
    ∃ spec, SubmittedAs r.id spec es ∧ spec.Carries r ∧ spec.space = m.org
  /-- A job that is submitted next is over a window of whole seconds that is not empty and has
  ended. -/
  next : ∀ k a spec answer s', s.Step (.call k a (.plane (.submit spec)) answer) s' →
    spec.LooksBack s.commons.clock

namespace Site

variable {s₀ s : Site} {es : List Event}

/-- At every moment of every history that begins with an empty store, under a clock that is never
set back, the runs look back. -/
theorem runs_look_back (hnew : s₀.IsNew) (htime : KeepsTime s₀.commons.clock es)
    (h : s₀.History es s) : s.LooksBack es := by
  obtain ⟨g, hg, hseen⟩ := h.exists_scene hnew.tasks
  have hreachable : g.Reachable := ⟨_, es, hnew.store, hnew.holder, hg⟩
  have htimely : g.IsTimely := hg.isTimely hnew.store hnew.holder htime
  have haccords : g.Accords es := hg.accords hnew.store hnew.holder
  have hcommons : g.commons = s.commons := hseen.commons
  refine ⟨fun r hr => ?_, fun r hr => ?_, fun k a spec answer s' hstep => ?_⟩
  · exact (htimely.runs r (hcommons ▸ hr)).toIsWellFormed
  · rw [← hcommons] at hr ⊢
    obtain ⟨m, hm, hid⟩ := hreachable.isConsistent.owned r hr
    obtain ⟨r₀, hr₀, horigin⟩ := haccords.recorded r hr
    obtain ⟨spec, hcarries, hsubmission⟩ := haccords.submission hr₀ horigin
    obtain ⟨job, e, he, haccepted⟩ := hsubmission.accepted
    obtain ⟨k, a, rfl⟩ := Event.of_accepted? haccepted
    refine ⟨m, hm, hid, spec, hsubmission, hcarries, ?_⟩
    exact hg.space_eq hnew.store hnew.holder (.inl hm) he
      (hcarries.monitorId.trans (congrArg Uuid.render hid.symm))
  · obtain ⟨g', hstep', -⟩ := hseen.step hstep
    exact hcommons ▸ htimely.looksBack hstep'

/-- A future monitor is created and run by a cycle, in a leap second. Then a past monitor is
created, and when the clock has moved on the first run is carried out again. -/
def threeWays : List Turn :=
  Turn.alone (.create "evaluation" "acme" (.tone "tone" none)) 0 6 ++
    .clock ⟨7259, 1999999999⟩ :: Turn.alone (.cycle "evaluation") 1 16 ++
    Turn.alone (.create "evaluation" "acme"
      (.tone "care" (some ⟨⟨0, 5⟩, ⟨3600, 999999999⟩⟩))) 2 11 ++
    .clock ⟨7300, 0⟩ ::
    Turn.alone (.rerun "evaluation" "acme" "tone" (Surroundings.accepting.id 1)) 3 7

/-- Of a run that a cycle has planned, the run of a past monitor whose window was asked for with
parts of seconds, and a run that is carried out again. -/
theorem runs_look_back_threeWays :
    let s₀ := holding [] ⟨7200, 123456789⟩
    let s := s₀.after .accepting threeWays
    s₀.IsNew ∧ KeepsTime s₀.commons.clock s.1 ∧ s₀.History s.1 s.2 ∧ s.2.LooksBack s.1 ∧
      (∀ task ∈ s.2.tasks, task.HasSucceeded) ∧
      s.2.commons.store.runs.map (fun r => (r.window, r.createdAt)) =
        [(⟨⟨3600, 0⟩, ⟨7080, 0⟩⟩, ⟨7259, 1999999999⟩), (⟨⟨0, 0⟩, ⟨3600, 0⟩⟩, ⟨7259, 1999999999⟩),
          (⟨⟨3600, 0⟩, ⟨7080, 0⟩⟩, ⟨7300, 0⟩)] := by
  intro s₀ s
  have hnew : s₀.IsNew := ⟨rfl, rfl, rfl⟩
  have htime : KeepsTime s₀.commons.clock s.1 := by decide +kernel
  have h : s₀.History s.1 s.2 := history_after (by decide +kernel)
  exact ⟨hnew, htime, h, runs_look_back hnew htime h, by decide +kernel, by decide +kernel⟩

end Site

end TraceWatch
