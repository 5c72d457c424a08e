import TraceWatch.Proofs.Cycle.Round
import TraceWatch.Proofs.Runs.Rerun

/-!
# How a cycle treats the monitors

A cycle treats each monitor by itself. What becomes of a monitor that is due is decided by its
record, by the instant at which the cycle starts and by what the workflow plane answers about its
own job (`Monitor.fate`): neither the other monitors nor their failures have anything to do with
it. A monitor that is not due is left alone. What the cycle counts is what has changed in the
store (`Store.TreatsEach`).
-/

namespace TraceWatch

open Program

/-! ## What is compared -/

namespace Store

instance (s : Store) (id : Uuid) : Decidable (s.HasRun id) :=
  inferInstanceAs (Decidable (∃ r ∈ s.runs, r.id = id))

/-- The runs of the later store that the earlier one does not have. -/
def addedRuns (s s' : Store) : List Run := s'.runs.filter fun r => ¬ s.HasRun r.id

/-- Those among them that belong to a monitor. -/
def addedRunsOf (s s' : Store) (id : Uuid) : List Run :=
  (s.addedRuns s').filter (·.monitorId = id)

/-- The runs of the earlier store that have another status in the later one. -/
def movedRuns (s s' : Store) : List Run :=
  s.runs.filter fun r => ∃ r' ∈ s'.runs, r'.id = r.id ∧ r'.status ≠ r.status

end Store

/-- The submissions of jobs of a monitor among calls of the workflow plane, with their answers. -/
def submissionsOf (id : Uuid) (calls : List Move.OfPlane) :
    List (JobSpec × Except PlaneError JobRef) :=
  calls.filterMap fun
    | ⟨.submit spec, answer⟩ =>
      if spec.parameters.monitorId = id.render then some (spec, answer) else none
    | _ => none

/-- What the workflow plane answers about a job: to its submission, and when it is asked how the job
is getting on. -/
structure Verdict where
  submission : Except PlaneError JobRef
  report : Except PlaneError Json

/-- The calls have been answered so as far as they are about the job of the monitor. -/
structure Verdict.IsAbout (v : Verdict) (m : Monitor) (added : List Run)
    (calls : List Move.OfPlane) : Prop where
  submission : ∀ x ∈ submissionsOf m.id calls, x.2 = v.submission
  report : ∀ r ∈ added, ⟨.resource (.run m.org r.jobName), v.report⟩ ∈ calls

/-- What becomes of a monitor that is due: when it is due next, and the window, the evaluators and
the status of the run that is added for it, if one is. -/
structure Fate where
  nextRun : Option Timestamp
  run : Option (Window × List Evaluator × RunStatus)

/-- What becomes of a monitor that is due at the instant, by the verdict on its job. -/
def Monitor.fate (m : Monitor) (t : Timestamp) (v : Verdict) : Fate :=
  match Plan.make m.nextRun m.interval t, v.submission with
  | .ok (some plan), .ok _ =>
    ⟨some plan.nextRun, some (plan.window, m.evaluators, RunStatus.pending.after v.report)⟩
  | _, _ => ⟨m.nextRun, none⟩

/-- A monitor whose job is not accepted stays on its schedule, and no run is added for it. -/
theorem Monitor.fate_of_rejected {v : Verdict} {e : PlaneError} (h : v.submission = .error e)
    (m : Monitor) (t : Timestamp) : m.fate t v = ⟨m.nextRun, none⟩ := by
  rw [fate, h]
  rcases Plan.make m.nextRun m.interval t with _ | _ | _ <;> rfl

/-- What has become of a monitor from one store to another. -/
def Store.fateOf (s s' : Store) (id : Uuid) : Fate :=
  ⟨(s'.findMonitor id).bind Monitor.nextRun,
    (s.addedRunsOf s' id).head?.map fun r => (r.window, r.evaluators, r.status)⟩

/-! ## The statement -/

/-- The monitor is stored as it was, and no run has been added for it. -/
structure Store.LeavesAlone (s s' : Store) (m : Monitor) : Prop where
  monitor : m ∈ s'.monitors
  runs : s.addedRunsOf s' m.id = []

/-- One run has been added for the monitor, the one that the job carries, and the monitor is as it
was, but due an interval after the end of the run's window. -/
structure Store.MovesOn (s s' : Store) (m : Monitor) (spec : JobSpec) (r : Run) : Prop where
  runs : s.addedRunsOf s' m.id = [r]
  carries : spec.Carries r
  monitor : ∃ i moved, m.interval = some i ∧
    { m with nextRun := some (r.window.stop.move (Timestamp.minutes i)), updatedAt := moved } ∈
      s'.monitors

/-- How a cycle that starts at the instant treats the monitors and the runs of a store: `calls` are
its calls of the workflow plane, and of the three stores the second is the one in which it has done
with the monitors and turns to the runs. -/
structure Store.TreatsEach (s s₁ s' : Store) (t : Timestamp) (calls : List Move.OfPlane)
    (tally : Tally) : Prop where
  /-- Monitors neither come nor go. -/
  monitorIds : s'.monitors.map Monitor.id = s.monitors.map Monitor.id
  /-- Runs do not go, and keep what they were recorded with. -/
  kept : ∀ r ∈ s.runs, ∃ r' ∈ s'.runs, r'.origin = r.origin
  /-- For a monitor that is due one job is submitted. If it is accepted, one run is added and the
  schedule is moved on; if not, the monitor is left alone. -/
  due : ∀ m ∈ s.monitors, m.isDue t = true →
    ∃ spec answer, submissionsOf m.id calls = [(spec, answer)] ∧
      match answer with
      | .ok _ => ∃ r, s.MovesOn s' m spec r
      | .error _ => s.LeavesAlone s' m
  /-- For a monitor that is not due no job is submitted, and it is left alone. -/
  spared : ∀ m ∈ s.monitors, m.isDue t = false →
    submissionsOf m.id calls = [] ∧ s.LeavesAlone s' m
  /-- What becomes of a monitor that is due is decided by its record, the instant and what the
  workflow plane answers about its own job. -/
  decided : ∀ m ∈ s.monitors, m.isDue t = true →
    ∃ v : Verdict, v.IsAbout m (s.addedRunsOf s' m.id) calls ∧ s.fateOf s' m.id = m.fate t v
  triggered : tally.triggered = (s.addedRuns s').length
  failed : tally.triggered + tally.failed = (s.monitors.filter (·.isDue t)).length
  reconciled : tally.reconciled = (s₁.movedRuns s').length

/-! ## What a round comes to -/

namespace IsRound

variable {template : String} {t : Timestamp} {moves : List Move} {s s₁ s' : Store}
  {xs : List Attempt} {ys : List Inquiry} {x : Attempt} {m : Monitor}

theorem eq_middle (h : IsRound template t moves s s₁ s' xs ys) :
    s₁ = ⟨s.monitors.map (Attempt.moveAll xs), s.runs ++ xs.flatMap (Attempt.runs template)⟩ :=
  h.triggered.trans (Attempt.foldl_perform xs s)

theorem eq_last (h : IsRound template t moves s s₁ s' xs ys) :
    s' = ⟨s.monitors.map (Attempt.moveAll xs),
      (s.runs ++ xs.flatMap (Attempt.runs template)).map (Inquiry.settleAll ys)⟩ := by
  rw [h.settled, Inquiry.foldl_perform, h.eq_middle]

/-- What is attempted is attempted for a stored monitor that is due. -/
theorem of_mem (h : IsRound template t moves s s₁ s' xs ys) (hx : x ∈ xs) :
    x.monitor ∈ s.monitors ∧ x.monitor.isDue t = true :=
  Store.mem_dueMonitors.1 (h.due ▸ List.mem_map_of_mem hx)

/-- For each monitor that is due there is an attempt. -/
theorem exists_attempt (h : IsRound template t moves s s₁ s' xs ys) (hm : m ∈ s.monitors)
    (hdue : m.isDue t = true) : ∃ x ∈ xs, x.monitor = m :=
  List.mem_map.1 (h.due ▸ Store.mem_dueMonitors.2 ⟨hm, hdue⟩)

/-- No two attempts are for one monitor. -/
theorem apart (h : IsRound template t moves s s₁ s' xs ys)
    (hids : (s.monitors.map Monitor.id).Nodup) :
    xs.Pairwise fun x y => x.monitor.id ≠ y.monitor.id := by
  have hnodup := Store.nodup_dueMonitors hids t
  rw [← h.due, List.map_map] at hnodup
  exact List.pairwise_map.1 hnodup

/-- For a monitor that is not due there is no attempt. -/
theorem ne_of_not_due (h : IsRound template t moves s s₁ s' xs ys)
    (hids : (s.monitors.map Monitor.id).Nodup) (hm : m ∈ s.monitors) (hnot : m.isDue t = false) :
    ∀ x ∈ xs, x.monitor.id ≠ m.id := by
  intro x hx heq
  obtain ⟨hstored, hdue⟩ := h.of_mem hx
  rw [List.inj_on_of_nodup_map hids hstored hm heq] at hdue
  cases hnot.symm.trans hdue

/-- Runs stay apart while others are added. -/
theorem nodup_runIds (h : IsRound template t moves s s₁ s' xs ys)
    (hruns : (s.runs.map Run.id).Nodup) : (s₁.runs.map Run.id).Nodup := by
  rw [h.eq_middle, List.map_append, Attempt.map_id_runs]
  have hdrawn : ((xs.filter Attempt.succeeds).map Attempt.id).Sublist (xs.map Attempt.id) :=
    List.filter_sublist.map _
  refine List.nodup_append'.2 ⟨hruns, h.unused.nodup.sublist hdrawn, fun id hold hnew => ?_⟩
  exact h.unused.unused id (hdrawn.mem hnew) (List.mem_map.1 hold)

/-- No run is asked about twice. -/
theorem asked_apart (h : IsRound template t moves s s₁ s' xs ys)
    (hruns : (s.runs.map Run.id).Nodup) :
    ys.Pairwise fun x y => x.entry.run.id ≠ y.entry.run.id := by
  have hnodup := Store.nodup_inFlight (h.nodup_runIds hruns)
  rw [← h.entries, List.map_map] at hnodup
  exact List.pairwise_map.1 hnodup

/-- The runs that have been added are those of the attempts, as the inquiries leave them. -/
theorem addedRuns_eq (h : IsRound template t moves s s₁ s' xs ys) :
    s.addedRuns s' = (xs.flatMap (Attempt.runs template)).map (Inquiry.settleAll ys) := by
  have hold : (s.runs.map (Inquiry.settleAll ys)).filter (fun r => ¬ s.HasRun r.id) = [] := by
    refine List.filter_eq_nil_iff.2 fun r hr hnew => of_decide_eq_true hnew ?_
    obtain ⟨r₀, hr₀, rfl⟩ := List.mem_map.1 hr
    exact ⟨r₀, hr₀, Inquiry.settleAll_id.symm⟩
  have hnew : ((xs.flatMap (Attempt.runs template)).map (Inquiry.settleAll ys)).filter
      (fun r => ¬ s.HasRun r.id) =
        (xs.flatMap (Attempt.runs template)).map (Inquiry.settleAll ys) := by
    refine List.filter_eq_self.2 fun r hr => decide_eq_true ?_
    obtain ⟨r₀, hr₀, rfl⟩ := List.mem_map.1 hr
    have hdrawn := List.mem_map_of_mem (f := Run.id) hr₀
    rw [Attempt.map_id_runs] at hdrawn
    rw [Inquiry.settleAll_id]
    exact h.unused.unused _ ((List.filter_sublist.map _).mem hdrawn)
  rw [Store.addedRuns, h.eq_last, List.map_append, List.filter_append, hold, hnew, List.nil_append]

/-- The runs that have been added for a monitor are those of its own attempts. -/
theorem addedRunsOf_eq (h : IsRound template t moves s s₁ s' xs ys) (id : Uuid) :
    s.addedRunsOf s' id =
      ((xs.filter (·.monitor.id = id)).flatMap (Attempt.runs template)).map
        (Inquiry.settleAll ys) := by
  rw [Store.addedRunsOf, h.addedRuns_eq, List.filter_map, ← Attempt.filter_runs]
  refine congrArg _ (List.filter_congr fun r _ => ?_)
  rw [Function.comp_apply, Inquiry.settleAll_monitorId]

/-- A submission is one of a job of the monitor that is attempted. -/
theorem submissionsOf_exchange (id : Uuid) (calls : List Move.OfPlane) :
    submissionsOf id (x.exchange template :: calls) =
      if x.monitor.id = id then
        ((x.assignment template).spec x.id, x.reply) :: submissionsOf id calls
      else submissionsOf id calls := by
  split
  case isTrue hid =>
    exact List.filterMap_cons_some (if_pos (congrArg Uuid.render hid))
  case isFalse hid =>
    exact List.filterMap_cons_none (if_neg fun heq => hid (Uuid.render_injective heq))

/-- The jobs that have been submitted for a monitor are those of its own attempts. -/
theorem submissions_eq (h : IsRound template t moves s s₁ s' xs ys) (id : Uuid) :
    submissionsOf id (planeMoves moves) = (xs.filter (·.monitor.id = id)).map fun x =>
      ((x.assignment template).spec x.id, x.reply) := by
  have hasked : submissionsOf id (ys.map Inquiry.exchange) = [] := by
    refine List.filterMap_eq_nil_iff.2 fun call hcall => ?_
    obtain ⟨y, -, rfl⟩ := List.mem_map.1 hcall
    rfl
  rw [h.exchanges, submissionsOf, List.filterMap_append, ← submissionsOf, ← submissionsOf, hasked,
    List.append_nil]
  clear h
  induction xs with
  | nil => rfl
  | cons x xs ih =>
    rw [List.map_cons, submissionsOf_exchange, ih]
    by_cases hid : x.monitor.id = id
    · rw [if_pos hid, List.filter_cons_of_pos (by simpa using hid), List.map_cons]
    · rw [if_neg hid, List.filter_cons_of_neg (by simpa using hid)]

/-- A run that has been added is as the workflow plane says when it is asked about its job. -/
theorem exists_report (h : IsRound template t moves s s₁ s' xs ys) (hs : s.IsProper) (hx : x ∈ xs)
    (hsucceeds : x.succeeds = true) : ∃ report : Except PlaneError Json,
    ⟨.resource (.run x.monitor.org ((x.assignment template).jobName x.id)), report⟩ ∈
      planeMoves moves ∧
    (Inquiry.settleAll ys ((x.assignment template).record x.id x.recorded)).status =
      RunStatus.pending.after report := by
  have hrun : (x.assignment template).record x.id x.recorded ∈ s₁.runs := by
    rw [h.eq_middle]
    refine List.mem_append_right _ (List.mem_flatMap.2 ⟨x, hx, ?_⟩)
    rw [Attempt.runs, if_pos hsucceeds]
    exact .head _
  have hmonitor : x.move x.monitor ∈ s₁.monitors := by
    rw [h.eq_middle, ← Attempt.moveAll_of_mem (h.apart hs.ids) hx]
    exact List.mem_map_of_mem (h.of_mem hx).1
  have hids : (s₁.monitors.map Monitor.id).Nodup := by
    rw [h.eq_middle, Attempt.map_id_moveAll]
    exact hs.ids
  have hfound : s₁.findMonitor x.monitor.id = some (x.move x.monitor) := by
    rw [← Attempt.move_id (x := x)]
    exact Store.findMonitor_of_mem hids hmonitor
  -- the run is in flight, so there is an inquiry about it
  have hentry : ⟨(x.assignment template).record x.id x.recorded, x.monitor.org⟩ ∈ s₁.inFlight :=
    Store.mem_inFlight.2 ⟨hrun, rfl, _, hfound, Attempt.move_org⟩
  rw [← h.entries] at hentry
  obtain ⟨⟨entry, report, stored⟩, hy, rfl⟩ := List.mem_map.1 hentry
  refine ⟨report, ?_, ?_⟩
  · rw [h.exchanges]
    exact List.mem_append_right _ (List.mem_map_of_mem hy)
  · have hsettled := Inquiry.settleAll_of_mem (h.asked_apart hs.runIds) hy
    exact (congrArg Run.status hsettled).trans Inquiry.settle_status

/-- The runs whose status changes are those that the inquiries settle otherwise. -/
theorem movedRuns_eq (h : IsRound template t moves s s₁ s' xs ys)
    (hruns : (s.runs.map Run.id).Nodup) :
    s₁.movedRuns s' = s₁.runs.filter fun r => (Inquiry.settleAll ys r).status ≠ r.status := by
  have hlast : s'.runs = s₁.runs.map (Inquiry.settleAll ys) := by
    rw [h.settled, Inquiry.foldl_perform]
  refine List.filter_congr fun r hr => decide_eq_decide.2 ⟨?_, fun hne => ?_⟩
  · rintro ⟨r', hr', hid, hne⟩
    rw [hlast] at hr'
    obtain ⟨r₀, hr₀, rfl⟩ := List.mem_map.1 hr'
    rw [Inquiry.settleAll_id] at hid
    obtain rfl : r₀ = r := List.inj_on_of_nodup_map (h.nodup_runIds hruns) hr₀ hr hid
    exact hne
  · rw [hlast]
    exact ⟨_, List.mem_map_of_mem hr, Inquiry.settleAll_id, hne⟩

/-! ## The attempts one by one -/

/-- One job is submitted for a monitor that is attempted. -/
theorem submissions_of_mem (h : IsRound template t moves s s₁ s' xs ys)
    (hids : (s.monitors.map Monitor.id).Nodup) (hx : x ∈ xs) :
    submissionsOf x.monitor.id (planeMoves moves) =
      [((x.assignment template).spec x.id, x.reply)] := by
  rw [h.submissions_eq, Attempt.filter_eq_singleton (h.apart hids) hx, List.map_singleton]

/-- The runs that are added for a monitor that is attempted are those of the attempt. -/
theorem addedRunsOf_of_mem (h : IsRound template t moves s s₁ s' xs ys)
    (hids : (s.monitors.map Monitor.id).Nodup) (hx : x ∈ xs) :
    s.addedRunsOf s' x.monitor.id = (x.runs template).map (Inquiry.settleAll ys) := by
  rw [h.addedRunsOf_eq, Attempt.filter_eq_singleton (h.apart hids) hx, List.flatMap_singleton]

/-- A monitor that is attempted is stored as the attempt moves it. -/
theorem move_mem (h : IsRound template t moves s s₁ s' xs ys)
    (hids : (s.monitors.map Monitor.id).Nodup) (hx : x ∈ xs) :
    x.move x.monitor ∈ s'.monitors := by
  rw [h.eq_last, ← Attempt.moveAll_of_mem (h.apart hids) hx]
  exact List.mem_map_of_mem (h.of_mem hx).1

/-- A monitor whose job is not accepted is left alone. -/
theorem leavesAlone_of_fails (h : IsRound template t moves s s₁ s' xs ys)
    (hids : (s.monitors.map Monitor.id).Nodup) (hx : x ∈ xs) (hfails : x.succeeds = false) :
    s.LeavesAlone s' x.monitor where
  monitor := by
    have hmoved := h.move_mem hids hx
    rwa [Attempt.move_of_fails hfails] at hmoved
  runs := by
    rw [h.addedRunsOf_of_mem hids hx, Attempt.runs, hfails]
    rfl

/-- A monitor whose job is accepted is moved on. -/
theorem movesOn_of_succeeds (h : IsRound template t moves s s₁ s' xs ys)
    (hids : (s.monitors.map Monitor.id).Nodup) (hx : x ∈ xs) (hsucceeds : x.succeeds = true) :
    s.MovesOn s' x.monitor ((x.assignment template).spec x.id)
      (Inquiry.settleAll ys ((x.assignment template).record x.id x.recorded)) where
  runs := by
    rw [h.addedRunsOf_of_mem hids hx, Attempt.runs, if_pos hsucceeds, List.map_singleton]
  carries := (Assignment.spec_carries _ x.id x.recorded).of_origin Inquiry.settleAll_origin
  monitor := by
    have hmoved := h.move_mem hids hx
    rw [Attempt.move, if_pos ⟨hsucceeds, rfl⟩] at hmoved
    have hplan := h.planned x hx
    obtain ⟨u, i, hnext, hinterval⟩ := Plan.exists_of_make hplan
    rw [hnext, hinterval] at hplan
    have hwindow : (Inquiry.settleAll ys
        ((x.assignment template).record x.id x.recorded)).window = x.plan.window :=
      congrArg RunOrigin.window Inquiry.settleAll_origin
    rw [(Plan.make_eq hplan).2.2.2] at hmoved
    exact ⟨i, x.moved, hinterval, hwindow ▸ hmoved⟩

/-- A monitor that is not due is left alone, and no job is submitted for it. -/
theorem leavesAlone_of_not_due (h : IsRound template t moves s s₁ s' xs ys)
    (hids : (s.monitors.map Monitor.id).Nodup) (hm : m ∈ s.monitors) (hnot : m.isDue t = false) :
    submissionsOf m.id (planeMoves moves) = [] ∧ s.LeavesAlone s' m := by
  have hother := h.ne_of_not_due hids hm hnot
  have hnone : xs.filter (·.monitor.id = m.id) = [] :=
    List.filter_eq_nil_iff.2 fun x hx heq => hother x hx (of_decide_eq_true heq)
  refine ⟨by rw [h.submissions_eq, hnone, List.map_nil], ?_, by rw [h.addedRunsOf_eq, hnone]; rfl⟩
  rw [h.eq_last, ← Attempt.moveAll_of_ne hother]
  exact List.mem_map_of_mem hm

/-- A monitor that is attempted is found as the attempt moves it. -/
theorem findMonitor_of_mem (h : IsRound template t moves s s₁ s' xs ys)
    (hids : (s.monitors.map Monitor.id).Nodup) (hx : x ∈ xs) :
    s'.findMonitor x.monitor.id = some (x.move x.monitor) := by
  have hids' : (s'.monitors.map Monitor.id).Nodup := by
    rw [h.eq_last, Attempt.map_id_moveAll]
    exact hids
  rw [← Attempt.move_id (x := x)]
  exact Store.findMonitor_of_mem hids' (h.move_mem hids hx)

/-- The answer to the submission is part of the verdict on the job. -/
theorem submission_eq (h : IsRound template t moves s s₁ s' xs ys)
    (hids : (s.monitors.map Monitor.id).Nodup) (hx : x ∈ xs) :
    ∀ y ∈ submissionsOf x.monitor.id (planeMoves moves), y.2 = x.reply := by
  intro y hy
  rw [h.submissions_of_mem hids hx] at hy
  rw [List.mem_singleton.1 hy]

/-- What becomes of a monitor whose job is not accepted is its fate. -/
theorem fateOf_of_error (h : IsRound template t moves s s₁ s' xs ys)
    (hids : (s.monitors.map Monitor.id).Nodup) (hx : x ∈ xs) {e : PlaneError}
    (hreply : x.reply = .error e) :
    ∃ v : Verdict, v.IsAbout x.monitor (s.addedRunsOf s' x.monitor.id) (planeMoves moves) ∧
      s.fateOf s' x.monitor.id = x.monitor.fate t v := by
  have hfails : x.succeeds = false := Attempt.fails_of_error hreply
  have hnone : s.addedRunsOf s' x.monitor.id = [] := (h.leavesAlone_of_fails hids hx hfails).runs
  refine ⟨⟨.error e, .error e⟩, ⟨hreply ▸ h.submission_eq hids hx, ?_⟩, ?_⟩
  · rw [hnone]
    exact List.forall_mem_nil _
  · rw [Store.fateOf, h.findMonitor_of_mem hids hx, hnone, Attempt.move_of_fails hfails,
      Monitor.fate_of_rejected rfl]
    rfl

/-- What becomes of a monitor whose job is accepted is its fate. -/
theorem fateOf_of_ok (h : IsRound template t moves s s₁ s' xs ys) (hs : s.IsProper) (hx : x ∈ xs)
    {job : JobRef} (hreply : x.reply = .ok job) :
    ∃ v : Verdict, v.IsAbout x.monitor (s.addedRunsOf s' x.monitor.id) (planeMoves moves) ∧
      s.fateOf s' x.monitor.id = x.monitor.fate t v := by
  have hsucceeds : x.succeeds = true := Attempt.succeeds_of_ok hreply
  have hone := (h.movesOn_of_succeeds hs.ids hx hsucceeds).runs
  have horigin : (Inquiry.settleAll ys ((x.assignment template).record x.id x.recorded)).origin =
      ((x.assignment template).record x.id x.recorded).origin := Inquiry.settleAll_origin
  obtain ⟨report, hasked, hstatus⟩ := h.exists_report hs hx hsucceeds
  refine ⟨⟨.ok job, report⟩, ⟨hreply ▸ h.submission_eq hs.ids hx, ?_⟩, ?_⟩
  · rw [hone]
    intro r hr
    rw [List.mem_singleton.1 hr, show Run.jobName _ = _ from congrArg RunOrigin.jobName horigin]
    exact hasked
  · rw [Store.fateOf, h.findMonitor_of_mem hs.ids hx, hone, Attempt.move, if_pos ⟨hsucceeds, rfl⟩,
      Monitor.fate, h.planned x hx, List.head?_cons, Option.map_some, hstatus,
      show Run.window _ = _ from congrArg RunOrigin.window horigin,
      show Run.evaluators _ = _ from congrArg RunOrigin.evaluators horigin]
    rfl

/-- As many jobs are accepted as there are runs added. -/
theorem length_addedRuns (h : IsRound template t moves s s₁ s' xs ys) :
    xs.countP Attempt.succeeds = (s.addedRuns s').length := by
  have hlength : ((xs.flatMap (Attempt.runs template)).map Run.id).length = _ :=
    congrArg List.length (Attempt.map_id_runs xs)
  rw [List.length_map, List.length_map, ← List.countP_eq_length_filter] at hlength
  rw [h.addedRuns_eq, List.length_map, hlength]

/-- For each monitor that is due a job is accepted or not. -/
theorem length_due (h : IsRound template t moves s s₁ s' xs ys) :
    xs.countP Attempt.succeeds + xs.countP (!·.succeeds) =
      (s.monitors.filter (·.isDue t)).length := by
  have hlength := congrArg List.length h.due
  rw [List.length_map, Store.dueMonitors, List.length_mergeSort] at hlength
  rw [← hlength, List.length_eq_countP_add_countP Attempt.succeeds]
  simp

/-- As many inquiries bring news as there are runs whose status changes. -/
theorem length_movedRuns (h : IsRound template t moves s s₁ s' xs ys)
    (hruns : (s.runs.map Run.id).Nodup) :
    ys.countP Inquiry.changes = (s₁.movedRuns s').length := by
  rw [h.movedRuns_eq hruns]
  refine Inquiry.countP_changes (h.nodup_runIds hruns) (h.asked_apart hruns) fun y hy => ?_
  exact (Store.mem_inFlight.1 (h.entries ▸ List.mem_map_of_mem hy)).1

/-- A round treats each monitor by itself. -/
theorem treats (h : IsRound template t moves s s₁ s' xs ys) (hs : s.IsProper) :
    s.TreatsEach s₁ s' t (planeMoves moves)
      ⟨xs.countP Attempt.succeeds, xs.countP (!·.succeeds), ys.countP Inquiry.changes⟩ where
  monitorIds := by
    rw [h.eq_last, Attempt.map_id_moveAll]
  kept := fun r hr => by
    refine ⟨Inquiry.settleAll ys r, ?_, Inquiry.settleAll_origin⟩
    rw [h.eq_last]
    exact List.mem_map_of_mem (List.mem_append_left _ hr)
  due := fun m hm hdue => by
    obtain ⟨x, hx, rfl⟩ := h.exists_attempt hm hdue
    refine ⟨_, x.reply, h.submissions_of_mem hs.ids hx, ?_⟩
    cases hreply : x.reply with
    | error e => exact h.leavesAlone_of_fails hs.ids hx (Attempt.fails_of_error hreply)
    | ok job => exact ⟨_, h.movesOn_of_succeeds hs.ids hx (Attempt.succeeds_of_ok hreply)⟩
  spared := fun m hm hnot => h.leavesAlone_of_not_due hs.ids hm hnot
  decided := fun m hm hdue => by
    obtain ⟨x, hx, rfl⟩ := h.exists_attempt hm hdue
    cases hreply : x.reply with
    | error e => exact h.fateOf_of_error hs.ids hx hreply
    | ok job => exact h.fateOf_of_ok hs hx hreply
  triggered := h.length_addedRuns
  failed := h.length_due
  reconciled := h.length_movedRuns hs.runIds

end IsRound

end TraceWatch
