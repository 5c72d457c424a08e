import TraceWatch.Proofs.Cycle.Triggers
import TraceWatch.Proofs.Runs.Submission

/-!
# The inquiries of a cycle

When the triggers of a cycle are over, it asks the workflow plane how each unfinished run is getting
on. While nobody else is at work that is a row of inquiries, one for each of these runs (`Inquiry`):
each settles its own run by what the plane answers about its job, or changes nothing. So a run
leaves the row as its own inquiry leaves it, and as many inquiries change something as there are
runs whose status has changed.
-/

namespace TraceWatch

open Program

/-! ## Inquiries -/

/-- The status of a run after the workflow plane has been asked about its job: what it reports, or
what it was before, if it does not. -/
def RunStatus.after (old : RunStatus) : Except PlaneError Json → RunStatus
  | .ok report => Report.runStatus report
  | .error _ => old

/-- To hear the same again is no news. -/
theorem RunStatus.after_after (old : RunStatus) (reply : Except PlaneError Json) :
    (old.after reply).after reply = old.after reply := by
  cases reply <;> rfl

/-- A run is asked about: what the plane answers, and the instant that the clock shows when the
answer is stored, if it comes to that. -/
structure Inquiry where
  entry : InFlightRun
  reply : Except PlaneError Json
  stored : Timestamp

namespace Inquiry

/-- The question and its answer. -/
def exchange (x : Inquiry) : Move.OfPlane :=
  ⟨.resource (.run x.entry.org x.entry.run.jobName), x.reply⟩

/-- The status that the run has by the answer. -/
def seen (x : Inquiry) : RunStatus := x.entry.run.status.after x.reply

/-- The message that comes with the answer. -/
def message (x : Inquiry) : Option String :=
  match x.reply with
  | .ok report => Report.message report
  | .error _ => none

/-- Whether the answer is news. -/
def changes (x : Inquiry) : Bool := x.entry.run.status ≠ x.seen

/-- What becomes of a stored run. -/
def settle (x : Inquiry) (r : Run) : Run :=
  if x.changes ∧ r.id = x.entry.run.id then
    { r with status := x.seen, errorMessage := x.message, updatedAt := x.stored }
  else r

/-- What becomes of the store. -/
def perform (s : Store) (x : Inquiry) : Store := ⟨s.monitors, s.runs.map x.settle⟩

/-- How it is counted. -/
def count (tally : Tally) (x : Inquiry) : Tally :=
  if x.changes then { tally with reconciled := tally.reconciled + 1 } else tally

variable {x : Inquiry} {r : Run}

/-- Nothing that a run was recorded with is changed. -/
theorem settle_origin : (x.settle r).origin = r.origin := by
  rw [settle]
  split <;> rfl

@[simp] theorem settle_id : (x.settle r).id = r.id := congrArg RunOrigin.id settle_origin

/-- An inquiry leaves other runs as they are. -/
theorem settle_of_ne (h : r.id ≠ x.entry.run.id) : x.settle r = r := if_neg fun hx => h hx.2

/-- An inquiry that brings no news leaves its own run as it is as well. -/
theorem settle_of_same (h : x.changes = false) : x.settle r = r :=
  if_neg fun hx => Bool.noConfusion (h.symm.trans hx.1)

/-- An inquiry that brings no news changes nothing. -/
theorem perform_of_same (h : x.changes = false) (s : Store) : x.perform s = s := by
  have hsettle : x.settle = fun r => r := funext fun _ => settle_of_same h
  rw [perform, hsettle, List.map_id']

/-- The run that is asked about has the status that the answer gives it. -/
theorem settle_status : (x.settle x.entry.run).status = x.seen := by
  cases hx : x.changes with
  | true => rw [settle, if_pos ⟨hx, rfl⟩]
  | false =>
    rw [settle_of_same hx]
    simpa [changes] using hx

end Inquiry

/-! ## One inquiry -/

/-- How far a stored run has come can be stored. -/
theorem StoreCall.perform_updateStatus {s : Store} {id : Uuid} (hid : s.HasRun id)
    (status : RunStatus) (message : Option String) (now : Timestamp) :
    perform now s (.updateStatus id status message) = (.ok (), ⟨s.monitors, s.runs.map fun r =>
      if r.id = id then { r with status, errorMessage := message, updatedAt := now } else r⟩) := by
  obtain ⟨r, hr, rfl⟩ := hid
  have hfound : (s.findRun r.id).isSome = true := List.find?_isSome.2 ⟨r, hr, by simp⟩
  simp only [perform, Store.updateStatus, hfound, if_true, change, Store.modifyRun]

/-- A reconciliation that nobody disturbs is an inquiry. -/
theorem Service.reconcile_plays {entry : InFlightRun} {s s' : Store} {moves : List Move}
    {result : Except MonitorError Bool} (h : Plays (reconcile entry).run moves result)
    (hrow : Chained s moves s') (hstored : s.HasRun entry.run.id) :
    ∃ x : Inquiry, x.entry = entry ∧ planeMoves moves = [x.exchange] ∧ s' = x.perform s ∧
      (result = .ok true ↔ x.changes = true) := by
  rw [reconcile_run] at h
  obtain ⟨reply, rest, rfl, h, hrow₁⟩ := h.of_idle_row hrow (by simp)
  cases reply with
  | error e =>
    obtain ⟨rfl, rfl⟩ := h.of_done
    have hsame : Inquiry.changes ⟨entry, .error e, ⟨0, 0⟩⟩ = false := by
      simp [Inquiry.changes, Inquiry.seen, RunStatus.after]
    refine ⟨⟨entry, .error e, ⟨0, 0⟩⟩, rfl, rfl, ?_, ?_⟩
    · rw [Inquiry.perform_of_same hsame]
      exact hrow₁
    · simp [hsame]
  | ok report =>
    dsimp only at h
    split at h
    · next heq =>
      obtain ⟨rfl, rfl⟩ := h.of_done
      have hsame : Inquiry.changes ⟨entry, .ok report, ⟨0, 0⟩⟩ = false :=
        decide_eq_false fun hne => hne heq
      refine ⟨⟨entry, .ok report, ⟨0, 0⟩⟩, rfl, rfl, ?_, ?_⟩
      · rw [Inquiry.perform_of_same hsame]
        exact hrow₁
      · simp [hsame]
    · next hnews =>
      obtain ⟨now, rest, rfl, h, hrow₂⟩ := h.of_idle_row hrow₁ (by simp)
      rw [Run.observe_report hnews] at h
      obtain ⟨clock, rest, rfl, h, hrow₃⟩ := h.of_store_row hrow₂
      rw [StoreCall.perform_updateStatus hstored] at h hrow₃
      obtain ⟨counted, rest, rfl, h, hrow₄⟩ := h.of_idle_row hrow₃ (by simp)
      obtain ⟨rfl, rfl⟩ := h.of_done
      have hchanges : Inquiry.changes ⟨entry, .ok report, clock⟩ = true := decide_eq_true hnews
      refine ⟨⟨entry, .ok report, clock⟩, rfl, rfl, ?_, by simp [hchanges]⟩
      rw [show s' = _ from hrow₄]
      refine congrArg (Store.mk s.monitors) (congrArg (s.runs.map ·) (funext fun r => ?_))
      rw [Inquiry.settle, hchanges]
      simp only [true_and]
      rfl

/-! ## All inquiries -/

/-- The inquiries are about the runs in flight, one after the other, and that is what the moves
do. -/
structure AreInquiries (entries : List InFlightRun) (moves : List Move) (s s' : Store)
    (xs : List Inquiry) : Prop where
  entries : xs.map Inquiry.entry = entries
  exchanges : planeMoves moves = xs.map Inquiry.exchange
  result : s' = xs.foldl Inquiry.perform s

/-- The reconciliations of a cycle that nobody disturbs are a row of inquiries, one for each run in
flight or, if the cycle is stopped, for the first of them, and they are counted by whether they
bring news. -/
theorem Service.reconcileAll_plays : ∀ {entries : List InFlightRun} {tally tally' : Tally}
    {s s' : Store} {moves : List Move}, Plays (reconcileAll entries tally) moves tally' →
    Chained s moves s' → (∀ entry ∈ entries, s.HasRun entry.run.id) →
    ∃ asked xs, asked <+: entries ∧ ((∀ move ∈ moves, ¬ move.Stops) → asked = entries) ∧
      AreInquiries asked moves s s' xs ∧ tally' = xs.foldl Inquiry.count tally
  | [], tally, tally', s, s', moves, h, hrow, _ => by
    obtain ⟨rfl, rfl⟩ := h.of_done
    exact ⟨[], [], List.prefix_refl _, fun _ => rfl, ⟨rfl, rfl, hrow⟩, rfl⟩
  | entry :: entries, tally, tally', s, s', moves, h, hrow, hstored => by
    rw [reconcileAll_cons] at h
    obtain ⟨stop, moves, rfl, h, hrow₁⟩ := h.of_idle_row hrow (by simp)
    cases stop with
    | true =>
      obtain ⟨rfl, rfl⟩ := h.of_done
      exact ⟨[], [], List.nil_prefix, fun hgoes => absurd rfl (hgoes _ (.head _)),
        ⟨rfl, rfl, hrow₁⟩, rfl⟩
    | false =>
      obtain ⟨first, second, result, rfl, hfirst, h⟩ := h.of_bind
      obtain ⟨s₁, hrow₁, hrow₂⟩ := hrow₁.of_append
      obtain ⟨x, rfl, hexchange, rfl, hresult⟩ :=
        reconcile_plays hfirst hrow₁ (hstored _ (.head _))
      -- what comes after this inquiry is a row of inquiries as well
      have hrest : Plays (reconcileAll entries (x.count tally)) second tally' := by
        rw [Inquiry.count]
        split
        · next hchanges =>
          obtain rfl := hresult.2 hchanges
          exact h
        · next hsame =>
          have hnot : result ≠ .ok true := fun heq => hsame (hresult.1 heq)
          rcases result with e | _ | _
          · exact h
          · exact h
          · exact absurd rfl hnot
      obtain ⟨asked, xs, hasked, hall, hxs, rfl⟩ := reconcileAll_plays hrest hrow₂
        fun entry hentry => by
          obtain ⟨r, hr, hid⟩ := hstored entry (.tail _ hentry)
          exact ⟨x.settle r, List.mem_map_of_mem hr, Inquiry.settle_id.trans hid⟩
      refine ⟨x.entry :: asked, x :: xs, List.prefix_cons_iff.2 (.inr ⟨_, rfl, hasked⟩),
        fun hgoes => ?_, ⟨congrArg _ hxs.entries, ?_, hxs.result⟩, rfl⟩
      · rw [hall fun move hmove => hgoes move (.tail _ (List.mem_append_right _ hmove))]
      · rw [planeMoves_cons_none rfl, planeMoves_append, hexchange, hxs.exchanges]
        rfl

/-! ## What the inquiries come to -/

namespace Inquiry

variable {s : Store} {xs : List Inquiry} {x : Inquiry} {r : Run}

/-- What becomes of a stored run in the end. -/
def settleAll (xs : List Inquiry) (r : Run) : Run := xs.foldl (fun r x => x.settle r) r

/-- Inquiries settle the runs one by one. -/
theorem foldl_perform : ∀ (xs : List Inquiry) (s : Store),
    xs.foldl perform s = ⟨s.monitors, s.runs.map (settleAll xs)⟩
  | [], s => by
    have hsettle : settleAll [] = fun r => r := rfl
    rw [hsettle, List.map_id', List.foldl_nil]
  | x :: xs, s => by
    rw [List.foldl_cons, foldl_perform xs, perform, List.map_map]
    rfl

/-- Inquiries are counted by whether they bring news. -/
theorem foldl_count : ∀ (xs : List Inquiry) (tally : Tally),
    xs.foldl count tally = { tally with reconciled := tally.reconciled + xs.countP changes }
  | [], _ => rfl
  | x :: xs, tally => by
    rw [List.foldl_cons, foldl_count xs, count]
    cases hx : x.changes <;> simp [hx, Nat.add_assoc, Nat.add_comm 1]

theorem settleAll_origin : (settleAll xs r).origin = r.origin := by
  induction xs generalizing r with
  | nil => rfl
  | cons x xs ih => exact ih.trans settle_origin

@[simp] theorem settleAll_id : (settleAll xs r).id = r.id := congrArg RunOrigin.id settleAll_origin

theorem settleAll_monitorId : (settleAll xs r).monitorId = r.monitorId :=
  congrArg RunOrigin.monitorId settleAll_origin

/-- A run that is not asked about stays as it is. -/
theorem settleAll_of_ne (h : ∀ x ∈ xs, x.entry.run.id ≠ r.id) : settleAll xs r = r := by
  induction xs with
  | nil => rfl
  | cons x xs ih =>
    obtain ⟨hx, hxs⟩ := List.forall_mem_cons.1 h
    rw [settleAll, List.foldl_cons, settle_of_ne (Ne.symm hx)]
    exact ih hxs

/-- A run is left as its own inquiry leaves it. -/
theorem settleAll_of_mem (hapart : xs.Pairwise fun x y => x.entry.run.id ≠ y.entry.run.id)
    (hx : x ∈ xs) : settleAll xs x.entry.run = x.settle x.entry.run := by
  induction xs with
  | nil => cases hx
  | cons y xs ih =>
    obtain ⟨hy, hapart⟩ := List.pairwise_cons.1 hapart
    rw [settleAll, List.foldl_cons]
    rcases List.mem_cons.1 hx with rfl | hx
    · refine settleAll_of_ne fun z hz => ?_
      rw [settle_id]
      exact (hy z hz).symm
    · rw [settle_of_ne (hy x hx).symm]
      exact ih hapart hx

/-- As many inquiries bring news as there are runs whose status changes. -/
theorem countP_changes (hids : (s.runs.map Run.id).Nodup)
    (hapart : xs.Pairwise fun x y => x.entry.run.id ≠ y.entry.run.id)
    (hstored : ∀ x ∈ xs, x.entry.run ∈ s.runs) :
    xs.countP changes = (s.runs.filter fun r => (settleAll xs r).status ≠ r.status).length := by
  have hmem : ∀ r, r ∈ (xs.filter changes).map (·.entry.run) ↔
      r ∈ s.runs.filter fun r => (settleAll xs r).status ≠ r.status := by
    intro r
    rw [List.mem_map, List.mem_filter]
    constructor
    · rintro ⟨x, hx, rfl⟩
      obtain ⟨hx, hchanges⟩ := List.mem_filter.1 hx
      refine ⟨hstored x hx, decide_eq_true ?_⟩
      rw [settleAll_of_mem hapart hx, settle_status]
      exact (of_decide_eq_true hchanges).symm
    · rintro ⟨hr, hne⟩
      have hasked : ∃ x ∈ xs, x.entry.run.id = r.id := by
        by_contra hnot
        push Not at hnot
        exact of_decide_eq_true hne (congrArg Run.status (settleAll_of_ne hnot))
      obtain ⟨x, hx, hid⟩ := hasked
      obtain rfl : x.entry.run = r := List.inj_on_of_nodup_map hids (hstored x hx) hr hid
      refine ⟨x, List.mem_filter.2 ⟨hx, decide_eq_true fun heq => ?_⟩, rfl⟩
      refine of_decide_eq_true hne ?_
      rw [settleAll_of_mem hapart hx, settle_status, heq]
  have hnews : ((xs.filter changes).map (·.entry.run)).Nodup := by
    refine List.pairwise_map.2 ((hapart.sublist List.filter_sublist).imp fun hne heq => ?_)
    exact hne (congrArg Run.id heq)
  have hmoved : (s.runs.filter fun r => (settleAll xs r).status ≠ r.status).Nodup :=
    hids.of_map.sublist List.filter_sublist
  rw [List.countP_eq_length_filter, ← List.length_map (·.entry.run)]
  exact ((List.perm_ext_iff_of_nodup hnews hmoved).2 hmem).length_eq

end Inquiry

end TraceWatch
