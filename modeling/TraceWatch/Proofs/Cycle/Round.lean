import TraceWatch.Proofs.Cycle.Inquiries
import TraceWatch.Proofs.Execution.Outcome
import TraceWatch.Proofs.Monitors.WellFormed

/-!
# The round of a cycle

A cycle that has got the lock, is not told to stop and has the service to itself goes one round: it
reads the clock, makes attempts for the monitors that are due then and inquiries about the runs that
are unfinished after that (`IsRound`), and what it answers with is how they have turned out. Only a
plan that leaves the calendar keeps it from coming to the end of its round (`Service.cycle_halts`).
-/

namespace TraceWatch

open Program

/-- A stored monitor that is due has what a trigger needs. -/
theorem Monitor.IsWellFormed.isReady {m : Monitor} (h : m.IsWellFormed) {t : Timestamp}
    (hdue : m.isDue t = true) : m.IsReady := by
  rw [isDue, Bool.and_eq_true] at hdue
  obtain ⟨n, hn, -⟩ := (Option.any_eq_true _ _).1 hdue.2
  obtain ⟨⟨i, hi, hlong⟩, -⟩ := h.future (isFuture_iff.1 hdue.1)
  exact ⟨by rw [hn]; rfl, ⟨i, hi, by omega⟩, h.evaluators⟩

/-- The monitors that are due can be triggered. -/
theorem Store.lists_dueMonitors {s : Store} (hids : (s.monitors.map Monitor.id).Nodup)
    (hwell : ∀ m ∈ s.monitors, m.IsWellFormed) (t : Timestamp) : s.Lists (s.dueMonitors t) where
  ids := hids
  nodup := nodup_dueMonitors hids t
  stored := fun _ hm => (mem_dueMonitors.1 hm).1
  ready := fun m hm => (hwell m (mem_dueMonitors.1 hm).1).isReady (mem_dueMonitors.1 hm).2

theorem Store.Spares.sublist {s : Store} {ids ids' : List Uuid} (h : s.Spares ids)
    (hsub : ids'.Sublist ids) : s.Spares ids' where
  nodup := h.nodup.sublist hsub
  unused := fun id hid => h.unused id (hsub.mem hid)

/-! ## Going the round -/

/-- With the moves a cycle goes its round at the instant: it makes the attempts, from one store to
the next, and then the inquiries. -/
structure IsRound (template : String) (t : Timestamp) (moves : List Move) (s s₁ s' : Store)
    (xs : List Attempt) (ys : List Inquiry) : Prop where
  opens : ∃ rest, moves = ⟨.now, t, s, s⟩ :: rest
  due : xs.map Attempt.monitor = s.dueMonitors t
  planned : ∀ x ∈ xs, Plan.make x.monitor.nextRun x.monitor.interval t = .ok (some x.plan)
  unused : s.Spares (xs.map Attempt.id)
  triggered : s₁ = xs.foldl (Attempt.perform template) s
  asks : ⟨.store .inFlight, .ok s₁.inFlight, s₁, s₁⟩ ∈ moves
  entries : ys.map Inquiry.entry = s₁.inFlight
  settled : s' = ys.foldl Inquiry.perform s₁
  exchanges : planeMoves moves = xs.map (Attempt.exchange template) ++ ys.map Inquiry.exchange

namespace Service

variable {template : String} {s s' : Store} {moves : List Move}

/-- A cycle under the lock that is neither stopped nor disturbed goes its round, and answers with
how its attempts and its inquiries have turned out. -/
theorem lockedCycle_plays {result : Except MonitorError Tally}
    (h : Plays (lockedCycle template).run moves result) (hrow : Chained s moves s')
    (hids : (s.monitors.map Monitor.id).Nodup) (hwell : ∀ m ∈ s.monitors, m.IsWellFormed)
    (hunused : s.Spares (drawnIds moves)) (hgoes : ∀ move ∈ moves, ¬ move.Stops) :
    ∃ t s₁ xs ys, IsRound template t moves s s₁ s' xs ys ∧
      result = .ok ⟨xs.countP Attempt.succeeds, xs.countP (!·.succeeds),
        ys.countP Inquiry.changes⟩ := by
  rw [lockedCycle_run] at h
  obtain ⟨t, rest, rfl, h, hrow₁⟩ := h.of_idle_row hrow (by simp)
  obtain ⟨clock, rest, rfl, h, hrow₂⟩ := h.of_store_row hrow₁
  obtain ⟨first, second, out, rfl, hfirst, h⟩ := h.of_bind
  obtain ⟨s₁, hrow₂, hrow₃⟩ := hrow₂.of_append
  -- the attempts
  have hdrawn : s.Spares (drawnIds first) :=
    hunused.sublist ((((List.sublist_append_left _ _).cons _).cons _).filterMap _)
  obtain ⟨xs, hxs, rfl⟩ := triggerAll_plays hfirst hrow₂ (s.lists_dueMonitors hids hwell t) hdrawn
    fun move hmove => hgoes move (.tail _ (.tail _ (List.mem_append_left _ hmove)))
  -- the inquiries
  obtain ⟨clock', rest, rfl, h, hrow₄⟩ := h.of_store_row hrow₃
  obtain ⟨third, last, tally, rfl, hthird, h⟩ := h.of_bind
  obtain ⟨rfl, rfl⟩ := h.of_done
  rw [List.append_nil] at hrow₄
  have hstored : ∀ entry ∈ s₁.inFlight, s₁.HasRun entry.run.id := fun entry hentry =>
    ⟨entry.run, (Store.mem_inFlight.1 hentry).1, rfl⟩
  obtain ⟨asked, ys, -, hall, hys, rfl⟩ := reconcileAll_plays hthird hrow₄ hstored
  obtain rfl : asked = s₁.inFlight := hall fun move hmove =>
    hgoes move (.tail _ (.tail _ (List.mem_append_right _
      (.tail _ (List.mem_append_left _ hmove)))))
  refine ⟨t, s₁, xs, ys, ⟨⟨_, rfl⟩, hxs.monitors, hxs.planned, ?_, hxs.result, ?_, hys.entries,
    hys.result, ?_⟩, ?_⟩
  · exact hxs.drawn ▸ hdrawn
  · exact .tail _ (.tail _ (List.mem_append_right _ (.head _)))
  · rw [planeMoves_cons_none rfl, planeMoves_cons_none rfl, planeMoves_append,
      planeMoves_cons_none rfl, List.append_nil, hxs.exchanges, hys.exchanges]
  · rw [Attempt.foldl_count, Inquiry.foldl_count]
    simp

/-- How a cycle ends when its work is over: it gives the lock back and counts what has come of
it. -/
def closing (out : Except MonitorError Tally) : Program (Except MonitorError CycleOutcome) :=
  .call .releaseLock fun _ =>
    match out with
    | .ok tally => .call (.count (.cycleEnded .completed)) fun _ => .done (.ok (.completed tally))
    | .error e => .call (.count (.cycleEnded .failed)) fun _ => .done (.error e)

theorem cycle_closes (template : String) :
    (cycle template).run = .call .acquireLock fun
      | .error e => .done (.error (.store e))
      | .ok false => .call (.count (.cycleEnded .skipped)) fun _ => .done (.ok .skipped)
      | .ok true => (lockedCycle template).run.bind closing :=
  cycle_run template

/-- The end of a cycle leaves the store and the workflow plane alone. -/
theorem closing_plays {out : Except MonitorError Tally} {result : Except MonitorError CycleOutcome}
    (h : Plays (closing out) moves result) (hrow : Chained s moves s') :
    s' = s ∧ planeMoves moves = [] ∧ result = out.map .completed := by
  obtain ⟨freed, rest, rfl, h, hrow₁⟩ := h.of_idle_row hrow (by simp)
  cases out with
  | ok tally =>
    obtain ⟨counted, rest, rfl, h, hrow₂⟩ := h.of_idle_row hrow₁ (by simp)
    obtain ⟨rfl, rfl⟩ := h.of_done
    exact ⟨hrow₂, rfl, rfl⟩
  | error e =>
    obtain ⟨counted, rest, rfl, h, hrow₂⟩ := h.of_idle_row hrow₁ (by simp)
    obtain ⟨rfl, rfl⟩ := h.of_done
    exact ⟨hrow₂, rfl, rfl⟩

/-- A cycle that gets the lock does its work under it, and after that leaves the store and the
workflow plane alone. -/
theorem cycle_underLock {result : Except MonitorError CycleOutcome}
    (h : Plays (cycle template).run moves result) (hrow : Chained s moves s')
    (htaken : ∃ before after, ⟨.acquireLock, .ok true, before, after⟩ ∈ moves) :
    ∃ round last out, moves = ⟨.acquireLock, .ok true, s, s⟩ :: (round ++ last) ∧
      planeMoves last = [] ∧ Plays (lockedCycle template).run round out ∧ Chained s round s' ∧
      result = out.map .completed := by
  rw [cycle_closes] at h
  obtain ⟨taken, rest, rfl, h, hrow₁⟩ := h.of_idle_row hrow (by simp)
  rcases taken with e | _ | _
  · obtain ⟨rfl, -⟩ := h.of_done
    simp at htaken
  · obtain ⟨counted, rest, rfl, h, -⟩ := h.of_idle_row hrow₁ (by simp)
    obtain ⟨rfl, -⟩ := h.of_done
    simp at htaken
  · obtain ⟨round, last, out, rfl, hround, h⟩ := h.of_bind
    obtain ⟨s₂, hrow₁, hrow₂⟩ := hrow₁.of_append
    obtain ⟨rfl, hlast, hresult⟩ := closing_plays h hrow₂
    exact ⟨round, last, out, rfl, hlast, hround, hrow₁, hresult⟩

/-- A cycle that gets the lock and is neither stopped nor disturbed goes its round under it. -/
theorem cycle_plays {result : Except MonitorError CycleOutcome}
    (h : Plays (cycle template).run moves result) (hrow : Chained s moves s')
    (htaken : ∃ before after, ⟨.acquireLock, .ok true, before, after⟩ ∈ moves)
    (hids : (s.monitors.map Monitor.id).Nodup) (hwell : ∀ m ∈ s.monitors, m.IsWellFormed)
    (hunused : s.Spares (drawnIds moves)) (hgoes : ∀ move ∈ moves, ¬ move.Stops) :
    ∃ t round last s₁ xs ys, moves = ⟨.acquireLock, .ok true, s, s⟩ :: (round ++ last) ∧
      planeMoves last = [] ∧ IsRound template t round s s₁ s' xs ys ∧
      result = .ok (.completed ⟨xs.countP Attempt.succeeds, xs.countP (!·.succeeds),
        ys.countP Inquiry.changes⟩) := by
  obtain ⟨round, last, out, rfl, hlast, hwork, hrow₁, rfl⟩ := cycle_underLock h hrow htaken
  have hdrawn : s.Spares (drawnIds round) :=
    hunused.sublist (((List.sublist_append_left _ _).cons _).filterMap _)
  obtain ⟨t, s₁, xs, ys, hround, rfl⟩ := lockedCycle_plays hwork hrow₁ hids hwell hdrawn
    fun move hmove => hgoes move (.tail _ (List.mem_append_left _ hmove))
  exact ⟨t, round, last, s₁, xs, ys, rfl, hlast, hround, rfl⟩

/-! ## Halting on the way -/

/-- A trigger halts only if its plan leaves the calendar. -/
theorem trigger_haltsOnlyIf (template : String) (m : Monitor) (t : Timestamp) :
    (trigger template m t).run.HaltsOnlyIf (Plan.make m.nextRun m.interval t = .ok none) := by
  rw [trigger_run]
  cases Plan.make m.nextRun m.interval t with
  | error e => trivial
  | ok planned =>
    cases planned with
    | none => rfl
    | some plan =>
      refine HaltsOnlyIf.bind (fun r => ?_) (Assignment.operation_returns _).haltsOnlyIf
      cases r with
      | error e => trivial
      | ok r => exact fun _ _ => trivial

/-- The triggers halt only if some plan leaves the calendar. -/
theorem triggerAll_haltsOnlyIf (template : String) (t : Timestamp) :
    ∀ (due : List Monitor) (tally : Tally), (triggerAll template t due tally).HaltsOnlyIf
      (∃ m ∈ due, Plan.make m.nextRun m.interval t = .ok none)
  | [], _ => trivial
  | m :: due, tally => by
    have hrest (tally : Tally) : (triggerAll template t due tally).HaltsOnlyIf
        (∃ m' ∈ m :: due, Plan.make m'.nextRun m'.interval t = .ok none) :=
      (triggerAll_haltsOnlyIf template t due tally).mono
        fun ⟨m', hm', hplan⟩ => ⟨m', .tail _ hm', hplan⟩
    rw [triggerAll_cons]
    intro stop
    cases stop with
    | true => trivial
    | false =>
      refine HaltsOnlyIf.bind (fun r => ?_)
        ((trigger_haltsOnlyIf template m t).mono fun hplan => ⟨m, .head _, hplan⟩)
      cases r with
      | ok => exact hrest _
      | error => exact fun _ => hrest _

/-- A reconciliation comes to an end. -/
theorem reconcile_returns (entry : InFlightRun) : (reconcile entry).run.Returns := by
  rw [reconcile_run]
  rintro (e | report)
  · trivial
  · dsimp only
    split
    · trivial
    · rintro now (e | _)
      · trivial
      · exact fun _ => trivial

/-- The reconciliations come to an end. -/
theorem reconcileAll_returns : ∀ (entries : List InFlightRun) (tally : Tally),
    (reconcileAll entries tally).Returns
  | [], _ => trivial
  | entry :: rest, tally => by
    rw [reconcileAll_cons]
    intro stop
    cases stop with
    | true => trivial
    | false =>
      refine Returns.bind (fun r => ?_) (reconcile_returns entry)
      rcases r with e | _ | _ <;> exact reconcileAll_returns rest _

/-- A cycle that halts has got the lock, read the clock and listed the monitors that are due, and
the plan for one of them leaves the calendar. -/
theorem cycle_halts_listed (h : (cycle template).run.Leads moves .halt) :
    ∃ s₁ s₂ s₃ t rest, moves = ⟨.acquireLock, .ok true, s₁, s₁⟩ :: ⟨.now, t, s₂, s₂⟩ ::
        ⟨.store (.dueMonitors t), .ok (s₃.dueMonitors t), s₃, s₃⟩ :: rest ∧
      ∃ m ∈ s₃.dueMonitors t, Plan.make m.nextRun m.interval t = .ok none := by
  rw [cycle_run] at h
  obtain ⟨taken, s₁, s₁', rest, rfl, hidle, h₁⟩ := h.of_halt
  rcases taken with e | _ | _
  · exact False.elim (h₁.haltsOnlyIf (P := False) trivial)
  · exact False.elim (h₁.haltsOnlyIf (P := False) fun _ => trivial)
  · rw [lockedCycle_run] at h₁
    obtain ⟨t, s₂, s₂', rest, rfl, hidle₁, h₂⟩ := h₁.of_halt
    obtain ⟨answer, s₃, s₃', rest, rfl, ⟨clock, hdue⟩, h₃⟩ := h₂.of_halt
    -- none of the calls up to this one changes the store
    obtain rfl : s₁' = s₁ := hidle
    obtain rfl : s₂' = s₂ := hidle₁
    obtain ⟨rfl, rfl⟩ : answer = .ok (s₃.dueMonitors t) ∧ s₃' = s₃ := Prod.mk.inj hdue
    refine ⟨_, _, _, t, rest, rfl, ?_⟩
    refine h₃.haltsOnlyIf (HaltsOnlyIf.bind (fun result => ?_) (HaltsOnlyIf.bind (fun out => ?_)
      (triggerAll_haltsOnlyIf template t _ _)))
    · intro freed
      cases result <;> exact fun _ => trivial
    · obtain ⟨tally, finished⟩ := out
      cases finished with
      | false => trivial
      | true =>
        rintro (e | entries)
        · trivial
        · refine HaltsOnlyIf.bind (fun tally => ?_) (reconcileAll_returns _ _).haltsOnlyIf
          trivial

/-- When nobody else calls, the monitor whose plan has left the calendar was due in the store that
the cycle has begun with. -/
theorem cycle_halts (h : (cycle template).run.Leads moves .halt) (hrow : Chained s moves s') :
    ∃ t rest, moves = ⟨.acquireLock, .ok true, s, s⟩ :: ⟨.now, t, s, s⟩ :: rest ∧
      ∃ m ∈ s.monitors, m.isDue t = true ∧ Plan.make m.nextRun m.interval t = .ok none := by
  obtain ⟨s₁, s₂, s₃, t, rest, rfl, m, hm, hplan⟩ := cycle_halts_listed h
  obtain ⟨rfl, rfl, rfl, -⟩ := hrow
  obtain ⟨hstored, hdue⟩ := Store.mem_dueMonitors.1 hm
  exact ⟨t, _, rfl, m, hstored, hdue, hplan⟩

end Service

end TraceWatch
