import TraceWatch.Proofs.Monitors.Atomicity

/-!
# The triggers of a cycle

While nobody else is at work, what a cycle makes of the monitors that are due is a row of attempts,
one for each of them (`Attempt`): each adds the run of its own monitor and moves the schedule of its
own monitor on, or changes nothing, and which of the two is decided by what the workflow plane
answers its own submission. So a monitor leaves the row as its own attempt leaves it, and the runs
that the row adds are those of the attempts that succeed.
-/

namespace TraceWatch

open Program

/-! ## Identifiers that are drawn -/

/-- The identifier that is drawn with the move. -/
def Move.drawn? : Move → Option Uuid
  | ⟨.freshId, id, _, _⟩ => some id
  | _ => none

/-- The identifiers that are drawn among the moves, in order. -/
def drawnIds (moves : List Move) : List Uuid := moves.filterMap Move.drawn?

@[simp] theorem drawnIds_append (first second : List Move) :
    drawnIds (first ++ second) = drawnIds first ++ drawnIds second :=
  List.filterMap_append

theorem drawnIds_cancelled (stop : Bool) (before after : Store) (moves : List Move) :
    drawnIds (⟨.cancelled, stop, before, after⟩ :: moves) = drawnIds moves := rfl

/-! ## Attempts -/

/-- A due monitor is triggered: by a plan, under an identifier, with what the plane answers the
submission, and at the instants that the clock shows when the run is recorded and when the schedule
is moved on, if it comes to that. -/
structure Attempt where
  monitor : Monitor
  plan : Plan
  id : Uuid
  reply : Except PlaneError JobRef
  recorded : Timestamp
  moved : Timestamp

namespace Attempt

/-- What is carried out. -/
def assignment (template : String) (x : Attempt) : Assignment :=
  ⟨template, x.monitor.org, x.monitor, x.plan.window, x.monitor.evaluators⟩

/-- The submission and its answer. -/
def exchange (template : String) (x : Attempt) : Move.OfPlane :=
  ⟨.submit ((x.assignment template).spec x.id), x.reply⟩

/-- Whether the job is accepted. -/
def succeeds (x : Attempt) : Bool := x.reply.isOk

/-- The run that is recorded, if the job is accepted. -/
def runs (template : String) (x : Attempt) : List Run :=
  if x.succeeds then [(x.assignment template).record x.id x.recorded] else []

/-- What becomes of a stored monitor. -/
def move (x : Attempt) (m : Monitor) : Monitor :=
  if x.succeeds ∧ m.id = x.monitor.id then
    { m with nextRun := some x.plan.nextRun, updatedAt := x.moved }
  else m

/-- How it is counted. -/
def count (tally : Tally) (x : Attempt) : Tally :=
  if x.succeeds then { tally with triggered := tally.triggered + 1 }
  else { tally with failed := tally.failed + 1 }

/-- What becomes of the store. -/
def perform (template : String) (s : Store) (x : Attempt) : Store :=
  ⟨s.monitors.map x.move, s.runs ++ x.runs template⟩

variable {template : String} {x : Attempt} {m : Monitor}

@[simp] theorem move_id : (x.move m).id = m.id := by
  rw [move]
  split <;> rfl

@[simp] theorem move_org : (x.move m).org = m.org := by
  rw [move]
  split <;> rfl

theorem succeeds_of_ok {job : JobRef} (h : x.reply = .ok job) : x.succeeds = true := by
  rw [succeeds, h]
  rfl

theorem fails_of_error {e : PlaneError} (h : x.reply = .error e) : x.succeeds = false := by
  rw [succeeds, h]
  rfl

/-- An attempt leaves other monitors as they are. -/
theorem move_of_ne (h : m.id ≠ x.monitor.id) : x.move m = m := if_neg fun hx => h hx.2

/-- An attempt that does not succeed leaves its monitor as it is as well. -/
theorem move_of_fails (h : x.succeeds = false) : x.move m = m :=
  if_neg fun hx => Bool.noConfusion (h.symm.trans hx.1)

/-- An attempt that does not succeed changes nothing. -/
theorem perform_of_fails (h : x.succeeds = false) (s : Store) : x.perform template s = s := by
  have hmove : x.move = fun m => m := funext fun _ => move_of_fails h
  rw [perform, hmove, runs, h]
  simp

end Attempt

/-! ## One trigger -/

/-- The monitor has what a trigger needs. -/
structure Monitor.IsReady (m : Monitor) : Prop where
  nextRun : m.nextRun.isSome = true
  interval : ∃ i, m.interval = some i ∧ 1 ≤ i
  evaluators : m.evaluators ≠ []

/-- Nothing but the calendar keeps a plan from being made for such a monitor. -/
theorem Monitor.IsReady.make_ne_error {m : Monitor} (h : m.IsReady) (t : Timestamp)
    (e : WindowError) : Plan.make m.nextRun m.interval t ≠ .error e := by
  obtain ⟨i, hi, hpos⟩ := h.interval
  obtain ⟨n, hn⟩ := Option.isSome_iff_exists.1 h.nextRun
  rw [hi, hn, Plan.make, if_neg (by omega)]
  intro heq
  cases heq

/-- A stored monitor that is on its schedule is moved on. -/
theorem StoreCall.perform_advance {ms : List Monitor} {rs : List Run} {m : Monitor} (hm : m ∈ ms)
    (hids : (ms.map Monitor.id).Nodup) (hnext : m.nextRun.isSome = true) (next now : Timestamp) :
    perform now ⟨ms, rs⟩ (.advance m.id next) = (.ok true, ⟨ms.map fun m' =>
      if m'.id = m.id then { m' with nextRun := some next, updatedAt := now } else m', rs⟩) := by
  have hfind : Store.findMonitor ⟨ms, rs⟩ m.id = some m := Store.findMonitor_of_mem hids hm
  simp only [perform, conditional, Store.advance, Store.reschedule, hfind, Option.any_some, hnext,
    if_true, Store.modifyMonitor]

/-- A run is added for a stored monitor under an identifier that is not in use. -/
theorem StoreCall.perform_createRun {s : Store} {m : Monitor} {r : Run} (hm : m ∈ s.monitors)
    (howner : r.monitorId = m.id) (hunused : ¬ s.HasRun r.id) (now : Timestamp) :
    perform now s (.createRun r) = (.ok (), ⟨s.monitors, s.runs ++ [r]⟩) := by
  have hfound : (s.findMonitor r.monitorId).isSome = true :=
    List.find?_isSome.2 ⟨m, hm, decide_eq_true howner.symm⟩
  have hnone : s.findRun r.id = none :=
    List.find?_eq_none.2 fun r' hr' heq => hunused ⟨r', hr', of_decide_eq_true heq⟩
  simp only [perform, Store.createRun, hfound, if_true, change, Store.putRun, hnone,
    Option.isSome_none, Bool.false_eq_true, if_false]

/-- An execution for a stored monitor that nobody disturbs submits its job, and records the run if
the job is accepted. -/
theorem Assignment.plays_row {x : Assignment} {s s' : Store} {moves : List Move}
    {result : Except MonitorError Run} (h : Plays x.operation.run moves result)
    (hrow : Chained s moves s') (hm : x.monitor ∈ s.monitors) (hevaluators : x.evaluators ≠ [])
    (hunused : ∀ id ∈ drawnIds moves, ¬ s.HasRun id) :
    ∃ id reply, drawnIds moves = [id] ∧ planeMoves moves = [⟨.submit (x.spec id), reply⟩] ∧
      ((∃ e, reply = .error e ∧ result = .error (.plane e) ∧ s' = s) ∨
        ∃ job now, reply = .ok job ∧ result = .ok (x.record id now) ∧
          s' = ⟨s.monitors, s.runs ++ [x.record id now]⟩) := by
  rw [operation_run] at h
  obtain ⟨id, rest, rfl, h, hrow₁⟩ := h.of_idle_row hrow (by simp)
  have hnew : ¬ s.HasRun id := hunused id (.head _)
  rw [if_neg (by simpa using hevaluators)] at h
  obtain ⟨reply, rest, rfl, h, hrow₂⟩ := h.of_idle_row hrow₁ (by simp)
  cases reply with
  | error e =>
    obtain ⟨rfl, rfl⟩ := h.of_done
    exact ⟨id, .error e, rfl, rfl, .inl ⟨e, rfl, rfl, hrow₂⟩⟩
  | ok job =>
    obtain ⟨now, rest, rfl, h, hrow₃⟩ := h.of_idle_row hrow₂ (by simp)
    obtain ⟨clock, rest, rfl, h, hrow₄⟩ := h.of_store_row hrow₃
    rw [StoreCall.perform_createRun (r := x.record id now) hm rfl hnew] at h hrow₄
    obtain ⟨counted, rest, rfl, h, hrow₅⟩ := h.of_idle_row hrow₄ (by simp)
    obtain ⟨rfl, rfl⟩ := h.of_done
    exact ⟨id, .ok job, rfl, rfl, .inr ⟨job, now, rfl, rfl, hrow₅⟩⟩

/-- A trigger that nobody disturbs is an attempt. -/
theorem Service.trigger_plays {template : String} {t : Timestamp} {m : Monitor} {s s' : Store}
    {moves : List Move} {result : Except MonitorError Run}
    (h : Plays (trigger template m t).run moves result) (hrow : Chained s moves s')
    (hm : m ∈ s.monitors) (hready : m.IsReady) (hids : (s.monitors.map Monitor.id).Nodup)
    (hunused : ∀ id ∈ drawnIds moves, ¬ s.HasRun id) :
    ∃ x : Attempt, x.monitor = m ∧ Plan.make m.nextRun m.interval t = .ok (some x.plan) ∧
      drawnIds moves = [x.id] ∧ planeMoves moves = [x.exchange template] ∧
      s' = x.perform template s ∧ result.isOk = x.succeeds := by
  rw [trigger_run] at h
  cases hplan : Plan.make m.nextRun m.interval t with
  | error e => exact absurd hplan (hready.make_ne_error t e)
  | ok planned =>
    rw [hplan] at h
    cases planned with
    | none => cases h
    | some plan =>
      obtain ⟨first, second, ran, rfl, hrun, h⟩ := h.of_bind
      obtain ⟨s₁, hfirst, hsecond⟩ := hrow.of_append
      have hunused' : ∀ id ∈ drawnIds first, ¬ s.HasRun id := fun id hid =>
        hunused id (by rw [drawnIds, List.filterMap_append]; exact List.mem_append_left _ hid)
      obtain ⟨id, reply, hdrawn, hplane, ⟨e, rfl, rfl, rfl⟩ | ⟨job, now, rfl, rfl, rfl⟩⟩ :=
        Assignment.plays_row hrun hfirst hm hready.evaluators hunused'
      · obtain ⟨rfl, rfl⟩ := h.of_done
        rw [List.append_nil]
        refine ⟨⟨m, plan, id, .error e, t, t⟩, rfl, rfl, hdrawn, hplane, ?_, rfl⟩
        rw [Attempt.perform_of_fails rfl]
        exact hsecond
      · obtain ⟨clock, rest, rfl, h, hrow₁⟩ := h.of_store_row hsecond
        obtain ⟨counted, rest, rfl, h, hrow₂⟩ := h.of_idle_row hrow₁ (by simp)
        obtain ⟨rfl, rfl⟩ := h.of_done
        refine ⟨⟨m, plan, id, .ok job, now, clock⟩, rfl, rfl, ?_, ?_, ?_, rfl⟩
        · rw [drawnIds_append, hdrawn]
          rfl
        · rw [planeMoves_append, hplane]
          rfl
        · rw [show s' = _ from hrow₂, StoreCall.perform_advance hm hids hready.nextRun]
          simp [Attempt.perform, Attempt.runs, Attempt.succeeds,
            Attempt.assignment, Attempt.move, Except.isOk, Except.toBool]

/-! ## All triggers -/

/-- The move tells the task to stop. -/
def Move.Stops : Move → Prop
  | ⟨.cancelled, stop, _, _⟩ => stop = true
  | _ => False

/-- The monitors are stored, each of them once, and have what a trigger needs. -/
structure Store.Lists (s : Store) (due : List Monitor) : Prop where
  ids : (s.monitors.map Monitor.id).Nodup
  nodup : (due.map Monitor.id).Nodup
  stored : ∀ m ∈ due, m ∈ s.monitors
  ready : ∀ m ∈ due, m.IsReady

/-- The identifiers are different, and no stored run has one of them. -/
structure Store.Spares (s : Store) (ids : List Uuid) : Prop where
  nodup : ids.Nodup
  unused : ∀ id ∈ ids, ¬ s.HasRun id

namespace Attempt

variable {template : String} {s : Store} {x : Attempt}

/-- The monitors that are still to be triggered are stored as before. -/
theorem lists_perform {due : List Monitor} (h : s.Lists (x.monitor :: due)) :
    (x.perform template s).Lists due where
  ids := by
    rw [perform, List.map_map, show Monitor.id ∘ x.move = Monitor.id from funext fun _ => move_id]
    exact h.ids
  nodup := (List.nodup_cons.1 h.nodup).2
  stored := fun m hm => by
    have hne : m.id ≠ x.monitor.id := fun heq =>
      (List.nodup_cons.1 h.nodup).1 (heq ▸ List.mem_map_of_mem hm)
    exact List.mem_map.2 ⟨m, h.stored m (.tail _ hm), move_of_ne hne⟩
  ready := fun m hm => h.ready m (.tail _ hm)

/-- Nobody else's identifier comes into use. -/
theorem spares_perform {ids : List Uuid} (h : s.Spares (x.id :: ids)) :
    (x.perform template s).Spares ids where
  nodup := (List.nodup_cons.1 h.nodup).2
  unused := by
    rintro id hid ⟨r, hr, rfl⟩
    rcases List.mem_append.1 hr with hr | hr
    · exact h.unused _ (.tail _ hid) ⟨r, hr, rfl⟩
    · rw [runs] at hr
      split at hr
      · obtain rfl := List.mem_singleton.1 hr
        exact (List.nodup_cons.1 h.nodup).1 hid
      · cases hr

end Attempt

/-- The attempts are made for the due monitors at an instant, one after the other, and that is what
the moves do. -/
structure AreAttempts (template : String) (t : Timestamp) (due : List Monitor) (moves : List Move)
    (s s' : Store) (xs : List Attempt) : Prop where
  monitors : xs.map Attempt.monitor = due
  planned : ∀ x ∈ xs, Plan.make x.monitor.nextRun x.monitor.interval t = .ok (some x.plan)
  drawn : drawnIds moves = xs.map Attempt.id
  exchanges : planeMoves moves = xs.map (Attempt.exchange template)
  result : s' = xs.foldl (Attempt.perform template) s

/-- An attempt can be made before others. -/
theorem AreAttempts.cons {template : String} {t : Timestamp} {due : List Monitor}
    {moves rest : List Move} {s s' : Store} {x : Attempt} {xs : List Attempt}
    (h : AreAttempts template t due rest (x.perform template s) s' xs)
    (hplan : Plan.make x.monitor.nextRun x.monitor.interval t = .ok (some x.plan))
    (hdrawn : drawnIds moves = x.id :: drawnIds rest)
    (hexchange : planeMoves moves = x.exchange template :: planeMoves rest) :
    AreAttempts template t (x.monitor :: due) moves s s' (x :: xs) where
  monitors := congrArg _ h.monitors
  planned := List.forall_mem_cons.2 ⟨hplan, h.planned⟩
  drawn := by rw [hdrawn, h.drawn, List.map_cons]
  exchanges := by rw [hexchange, h.exchanges, List.map_cons]
  result := h.result

/-- The triggers of a cycle that nobody disturbs or stops are a row of attempts, one for each due
monitor, and they are counted by how they turn out. -/
theorem Service.triggerAll_plays {template : String} {t : Timestamp} : ∀ {due : List Monitor}
    {tally : Tally} {s s' : Store} {moves : List Move} {out : Tally × Bool},
    Plays (triggerAll template t due tally) moves out → Chained s moves s' → s.Lists due →
    s.Spares (drawnIds moves) → (∀ move ∈ moves, ¬ move.Stops) →
    ∃ xs, AreAttempts template t due moves s s' xs ∧ out = (xs.foldl Attempt.count tally, true)
  | [], tally, s, s', moves, out, h, hrow, _, _, _ => by
    obtain ⟨rfl, rfl⟩ := h.of_done
    exact ⟨[], ⟨rfl, List.forall_mem_nil _, rfl, rfl, hrow⟩, rfl⟩
  | m :: due, tally, s, s', moves, out, h, hrow, hdue, hids, hgoes => by
    rw [triggerAll_cons] at h
    obtain ⟨stop, moves, rfl, h, hrow₁⟩ := h.of_idle_row hrow (by simp)
    cases stop with
    | true => exact absurd rfl (hgoes _ (.head _))
    | false =>
      obtain ⟨first, second, result, rfl, hfirst, h⟩ := h.of_bind
      obtain ⟨s₁, hrow₁, hrow₂⟩ := hrow₁.of_append
      rw [drawnIds_cancelled, drawnIds_append] at hids
      obtain ⟨x, rfl, hplan, hid, hexchange, rfl, hresult⟩ :=
        trigger_plays hfirst hrow₁ (hdue.stored _ (.head _)) (hdue.ready _ (.head _)) hdue.ids
          fun id hid => hids.unused id (List.mem_append_left _ hid)
      rw [hid] at hids
      -- what comes after this trigger is a row of attempts as well
      have hrest : (x.perform template s).Lists due := Attempt.lists_perform hdue
      have hspares : (x.perform template s).Spares (drawnIds second) := Attempt.spares_perform hids
      have hdrawn : drawnIds (⟨.cancelled, false, s, s⟩ :: (first ++ second)) =
          x.id :: drawnIds second := by
        rw [drawnIds_cancelled, drawnIds_append, hid, List.singleton_append]
      have hplane : planeMoves (⟨.cancelled, false, s, s⟩ :: (first ++ second)) =
          x.exchange template :: planeMoves second := by
        rw [planeMoves_cons_none rfl, planeMoves_append, hexchange, List.singleton_append]
      cases result with
      | ok r =>
        have hsucceeds : x.succeeds = true := hresult.symm
        obtain ⟨xs, hxs, rfl⟩ := triggerAll_plays h hrow₂ hrest hspares fun move hmove =>
          hgoes move (.tail _ (List.mem_append_right _ hmove))
        refine ⟨x :: xs, hxs.cons hplan hdrawn hplane, ?_⟩
        rw [List.foldl_cons, Attempt.count, if_pos hsucceeds]
      | error e =>
        have hfails : ¬ x.succeeds = true := by
          rw [← hresult]
          exact Bool.false_ne_true
        obtain ⟨counted, rest, rfl, h, hrow₃⟩ := h.of_idle_row hrow₂ (by simp)
        obtain ⟨xs, hxs, rfl⟩ := triggerAll_plays h hrow₃ hrest hspares fun move hmove =>
          hgoes move (.tail _ (List.mem_append_right _ (.tail _ hmove)))
        refine ⟨x :: xs, hxs.cons hplan hdrawn hplane, ?_⟩
        rw [List.foldl_cons, Attempt.count, if_neg hfails]

/-! ## What the attempts come to -/

namespace Attempt

variable {template : String} {s : Store} {xs : List Attempt} {x : Attempt} {m : Monitor}

/-- What becomes of a stored monitor in the end. -/
def moveAll (xs : List Attempt) (m : Monitor) : Monitor := xs.foldl (fun m x => x.move m) m

/-- Attempts move the monitors one by one, and add their runs. -/
theorem foldl_perform : ∀ (xs : List Attempt) (s : Store),
    xs.foldl (perform template) s =
      ⟨s.monitors.map (moveAll xs), s.runs ++ xs.flatMap (runs template)⟩
  | [], s => by
    have hmove : moveAll [] = fun m => m := rfl
    rw [List.flatMap_nil, List.append_nil, hmove, List.map_id', List.foldl_nil]
  | x :: xs, s => by
    rw [List.foldl_cons, foldl_perform xs, perform, List.map_map, List.append_assoc]
    rfl

/-- Attempts are counted by how they turn out. -/
theorem foldl_count : ∀ (xs : List Attempt) (tally : Tally),
    xs.foldl count tally = { tally with
      triggered := tally.triggered + xs.countP succeeds
      failed := tally.failed + xs.countP (!·.succeeds) }
  | [], _ => rfl
  | x :: xs, tally => by
    rw [List.foldl_cons, foldl_count xs, count]
    cases hx : x.succeeds <;> simp [hx, Nat.add_assoc, Nat.add_comm 1]

@[simp] theorem moveAll_id : (moveAll xs m).id = m.id := by
  induction xs generalizing m with
  | nil => rfl
  | cons x xs ih => exact ih.trans move_id

theorem map_id_moveAll (xs : List Attempt) (ms : List Monitor) :
    (ms.map (moveAll xs)).map Monitor.id = ms.map Monitor.id := by
  rw [List.map_map]
  exact List.map_congr_left fun _ _ => moveAll_id

/-- A monitor for which there is no attempt stays as it is. -/
theorem moveAll_of_ne (h : ∀ x ∈ xs, x.monitor.id ≠ m.id) : moveAll xs m = m := by
  induction xs with
  | nil => rfl
  | cons x xs ih =>
    obtain ⟨hx, hxs⟩ := List.forall_mem_cons.1 h
    rw [moveAll, List.foldl_cons, move_of_ne (Ne.symm hx)]
    exact ih hxs

/-- A monitor is left as its own attempt leaves it. -/
theorem moveAll_of_mem (hapart : xs.Pairwise fun x y => x.monitor.id ≠ y.monitor.id)
    (hx : x ∈ xs) : moveAll xs x.monitor = x.move x.monitor := by
  induction xs with
  | nil => cases hx
  | cons y xs ih =>
    obtain ⟨hy, hapart⟩ := List.pairwise_cons.1 hapart
    rw [moveAll, List.foldl_cons]
    rcases List.mem_cons.1 hx with rfl | hx
    · refine moveAll_of_ne fun z hz => ?_
      rw [move_id]
      exact (hy z hz).symm
    · rw [move_of_ne (hy x hx).symm]
      exact ih hapart hx

/-- There is one attempt for each of the monitors. -/
theorem filter_eq_singleton (hapart : xs.Pairwise fun x y => x.monitor.id ≠ y.monitor.id)
    (hx : x ∈ xs) : xs.filter (·.monitor.id = x.monitor.id) = [x] := by
  induction xs with
  | nil => cases hx
  | cons y xs ih =>
    obtain ⟨hy, hapart⟩ := List.pairwise_cons.1 hapart
    rcases List.mem_cons.1 hx with rfl | hx
    · rw [List.filter_cons_of_pos (by simp)]
      refine congrArg _ (List.filter_eq_nil_iff.2 fun z hz heq => ?_)
      exact hy z hz (of_decide_eq_true heq).symm
    · rw [List.filter_cons_of_neg (by simpa using hy x hx)]
      exact ih hapart hx

/-- The runs that are added for a monitor are those of its own attempts. -/
theorem filter_runs (xs : List Attempt) (id : Uuid) :
    (xs.flatMap (runs template)).filter (·.monitorId = id) =
      (xs.filter (·.monitor.id = id)).flatMap (runs template) := by
  induction xs with
  | nil => rfl
  | cons x xs ih =>
    have howner : ∀ r ∈ x.runs template, r.monitorId = x.monitor.id := by
      intro r hr
      rw [runs] at hr
      split at hr
      · rw [List.mem_singleton.1 hr]
        rfl
      · cases hr
    rw [List.flatMap_cons, List.filter_append, ih]
    by_cases hid : x.monitor.id = id
    · rw [List.filter_cons_of_pos (by simpa using hid), List.flatMap_cons]
      congr 1
      exact List.filter_eq_self.2 fun r hr => decide_eq_true ((howner r hr).trans hid)
    · have hnone : (x.runs template).filter (·.monitorId = id) = [] := by
        refine List.filter_eq_nil_iff.2 fun r hr heq => hid ?_
        exact (howner r hr).symm.trans (of_decide_eq_true heq)
      rw [List.filter_cons_of_neg (by simpa using hid), hnone, List.nil_append]

/-- The runs that are added have the identifiers that are drawn for them. -/
theorem map_id_runs (xs : List Attempt) :
    (xs.flatMap (runs template)).map Run.id = (xs.filter succeeds).map Attempt.id := by
  induction xs with
  | nil => rfl
  | cons x xs ih =>
    rw [List.flatMap_cons, List.map_append, ih, runs]
    cases hx : x.succeeds <;> simp [hx, Assignment.record, Run.pending]

end Attempt

end TraceWatch
