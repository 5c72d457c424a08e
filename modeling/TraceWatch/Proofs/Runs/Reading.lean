import TraceWatch.Proofs.Cycle.Round
import TraceWatch.Proofs.Runs.Settlement
import TraceWatch.Proofs.Store.Consistency

/-!
# Runs as their readers see them

The operations that show runs ask the workflow plane how an unfinished job is getting on, and so
does the reconciliation of a scheduler. One works on a copy and the other on the store, but they
come to the same (`Inquiry.settle_eq_seenBy`): what is shown of an unfinished run is what a
reconciliation with the same answer stores, and what is shown afterwards is what is stored then
(`reads_agree_with_reconciliation`). About a run that has ended nothing is asked, and reading
changes nothing.
-/

namespace TraceWatch

open Program

/-! ## One run -/

namespace Run

/-- The run after an answer about its job has been seen, at the instant. -/
def seenBy (r : Run) (reply : Except PlaneError Json) (now : Timestamp) : Run :=
  match reply with
  | .ok report => r.observe (Report.runStatus report) (Report.text report) now
  | .error _ => r

/-- Nothing that the run was recorded with is seen otherwise. -/
theorem seenBy_origin (r : Run) (reply : Except PlaneError Json) (now : Timestamp) :
    (r.seenBy reply now).origin = r.origin := by
  cases reply with
  | error e => rfl
  | ok report =>
    simp only [seenBy, observe]
    split <;> rfl

/-- A run that has the status by an answer already is seen as it is. -/
theorem seenBy_of_after_eq {r : Run} {reply : Except PlaneError Json}
    (h : r.status.after reply = r.status) (now : Timestamp) : r.seenBy reply now = r := by
  cases reply with
  | error e => rfl
  | ok report => exact if_pos h.symm

end Run

namespace Inquiry

/-- What an inquiry stores for its run is, but for the instant, what the answer lets see. -/
theorem settle_eq_seenBy (x : Inquiry) (now : Timestamp) :
    x.settle x.entry.run = { x.entry.run.seenBy x.reply now with
      updatedAt := (x.settle x.entry.run).updatedAt } := by
  cases hx : x.changes with
  | false =>
    rw [settle_of_same hx, Run.seenBy_of_after_eq (of_not_not (of_decide_eq_false hx)).symm]
  | true =>
    have hnews : x.entry.run.status ≠ x.seen := of_decide_eq_true hx
    rw [settle, if_pos ⟨hx, rfl⟩]
    obtain ⟨entry, reply, stored⟩ := x
    cases reply with
    | error e => exact absurd rfl hnews
    | ok report =>
      rw [Run.seenBy, Run.observe_report hnews]
      rfl

/-- To hear the same again about a run that has been settled is no news. -/
theorem settle_after (x : Inquiry) :
    (x.settle x.entry.run).status.after x.reply = (x.settle x.entry.run).status := by
  rw [settle_status]
  exact RunStatus.after_after _ _

end Inquiry

/-! ## What is shown -/

/-- A stored run and the organization in whose name it is shown. -/
structure Exhibit where
  org : String
  run : Run

namespace Exhibit

/-- What the workflow plane is asked about it: nothing, if the run has ended. -/
def question? (x : Exhibit) : Option PlaneCall :=
  if x.run.status.isTerminal then none else some (.resource (.run x.org x.run.jobName))

/-- What it is shown as, by the answers among the calls: as it is stored if the run has ended, and
otherwise as an answer about its own job lets it be seen. -/
inductive IsShownAs (calls : List Move.OfPlane) : Exhibit → Run → Prop
  | ended {x : Exhibit} : x.run.status.isTerminal = true → IsShownAs calls x x.run
  | asked {x : Exhibit} {reply : Except PlaneError Json} (now : Timestamp) :
    x.run.status.isTerminal = false →
    ⟨.resource (.run x.org x.run.jobName), reply⟩ ∈ calls →
    IsShownAs calls x (x.run.seenBy reply now)

variable {x : Exhibit} {calls calls' : List Move.OfPlane} {v : Run}

theorem IsShownAs.mono (h : x.IsShownAs calls v) (hsub : calls ⊆ calls') :
    x.IsShownAs calls' v := by
  cases h with
  | ended hended => exact .ended hended
  | asked now hopen hcall => exact .asked now hopen (hsub hcall)

theorem IsShownAs.id_eq (h : x.IsShownAs calls v) : v.id = x.run.id := by
  cases h with
  | ended => rfl
  | asked now => exact congrArg RunOrigin.id (Run.seenBy_origin _ _ _)

end Exhibit

/-- The runs are what the exhibits are shown as, one by one, and the calls are the questions about
them. -/
structure AreShown (xs : List Exhibit) (calls : List Move.OfPlane) (shown : List Run) : Prop where
  questions : calls.map Sigma.fst = xs.filterMap Exhibit.question?
  runs : List.Forall₂ (Exhibit.IsShownAs calls) xs shown

namespace AreShown

variable {xs xs' : List Exhibit} {calls calls' : List Move.OfPlane} {shown shown' : List Run}

theorem nil : AreShown [] [] [] := ⟨rfl, .nil⟩

theorem append (h : AreShown xs calls shown) (h' : AreShown xs' calls' shown') :
    AreShown (xs ++ xs') (calls ++ calls') (shown ++ shown') where
  questions := by rw [List.map_append, List.filterMap_append, h.questions, h'.questions]
  runs := List.rel_append
    (h.runs.imp fun _ _ hx => hx.mono (List.subset_append_left _ _))
    (h'.runs.imp fun _ _ hx => hx.mono (List.subset_append_right _ _))

/-- Whatever is shown is the showing of an exhibit. -/
theorem exists_exhibit (h : AreShown xs calls shown) {v : Run} (hv : v ∈ shown) :
    ∃ x ∈ xs, x.IsShownAs calls v := by
  obtain ⟨i, hi, rfl⟩ := List.mem_iff_getElem.1 hv
  have hlength := h.runs.length_eq
  exact ⟨xs[i], List.getElem_mem _, h.runs.get (hlength ▸ hi) hi⟩

end AreShown

/-! ## The operations that show runs -/

/-- An operation that shows runs. -/
inductive Showing where
  | get (org name : String)
  | list (org : String) (filter : MonitorFilter)
  | runs (org name : String) (limit : Option Nat)

/-- The latest run of a monitor, if it has one. -/
def Store.latestOf (s : Store) (m : Monitor) : List Exhibit :=
  ((s.latestRun m.id).map (Exhibit.mk m.org)).toList

namespace Showing

@[reducible]
def activity : Showing → Activity
  | get org name => .get org name
  | list org filter => .list org filter
  | runs org name limit => .runs org name limit

/-- The runs that are shown with a result. -/
def shown : (x : Showing) → x.activity.Result → List Run
  | get _ _, view => view.latestRun.toList
  | list _ _, views => views.flatMap fun view => view.latestRun.toList
  | runs _ _ _, shown => shown

/-- The monitor that the operation names is there, if it names one. -/
def IsFound (s : Store) : Showing → Prop
  | get org name | runs org name _ => (s.findByName org name).isSome
  | list _ _ => True

/-- The stored runs that are to be shown. -/
def exhibits (s : Store) : Showing → List Exhibit
  | get org name => (s.findByName org name).toList.flatMap s.latestOf
  | list org filter => (s.listMonitors org filter).flatMap s.latestOf
  | runs org name limit => (s.findByName org name).toList.flatMap fun m =>
    (s.listRuns m.id limit).map (Exhibit.mk org)

end Showing

section

variable {s s' : Store} {moves : List Move}

/-- An operation that begins by reading the store goes on with what it has read. -/
theorem Program.Plays.of_store_step {β : Type} {c : StoreCall} {answer : c.Answer}
    {f : c.Answer → Operation β} {result : Except MonitorError β}
    (h : Plays (Operation.store c >>= f).run moves result) (hrow : Chained s moves s')
    (hread : ∀ clock, c.perform clock s = (.ok answer, s)) :
    ∃ rest, planeMoves moves = planeMoves rest ∧ Plays (f answer).run rest result ∧
      Chained s rest s' := by
  rw [Operation.run_bind] at h
  obtain ⟨first, second, read, rfl, hfirst, hsecond⟩ := h.of_bind
  obtain ⟨s₁, hrow₁, hrow₂⟩ := hrow.of_append
  obtain ⟨clock, rest, rfl, hfirst, hrow₁⟩ := hfirst.of_store_row hrow₁
  rw [hread] at hfirst hrow₁
  obtain ⟨rfl, rfl⟩ := hfirst.of_done
  obtain rfl := hrow₁
  exact ⟨second, rfl, hsecond, hrow₂⟩

namespace Service

theorem refresh_shows {org : String} {r v : Run} (h : Plays (refresh org r) moves v) :
    AreShown [⟨org, r⟩] (planeMoves moves) [v] := by
  unfold refresh at h
  split at h
  · next hended =>
    obtain ⟨rfl, rfl⟩ := h.of_done
    exact ⟨by simp [planeMoves, Exhibit.question?, hended], .cons (.ended hended) .nil⟩
  · next hopen =>
    have hopen : r.status.isTerminal = false := by simpa using hopen
    obtain ⟨reply, before, after, rest, rfl, -, h⟩ := h.of_call
    have hshown (now : Timestamp) (hrest : planeMoves rest = []) :
        AreShown [⟨org, r⟩]
          (planeMoves (⟨.plane (.resource (.run org r.jobName)), reply, before, after⟩ :: rest))
          [r.seenBy reply now] := by
      have hcalls : planeMoves
          (⟨.plane (.resource (.run org r.jobName)), reply, before, after⟩ :: rest) =
            [⟨.resource (.run org r.jobName), reply⟩] := congrArg (List.cons _) hrest
      rw [hcalls]
      exact ⟨by simp [Exhibit.question?, hopen], .cons (.asked now hopen (.head _)) .nil⟩
    cases reply with
    | error e =>
      obtain ⟨rfl, rfl⟩ := h.of_done
      exact hshown ⟨0, 0⟩ rfl
    | ok report =>
      obtain ⟨now, before', after', rest, rfl, -, h⟩ := h.of_call
      obtain ⟨rfl, rfl⟩ := h.of_done
      exact hshown now rfl

theorem refreshAll_shows {org : String} : ∀ {rs shown : List Run} {moves : List Move},
    Plays (refreshAll org rs) moves shown →
      AreShown (rs.map (Exhibit.mk org)) (planeMoves moves) shown
  | [], shown, moves, h => by
    obtain ⟨rfl, rfl⟩ := h.of_done
    exact .nil
  | r :: rs, shown, moves, h => by
    obtain ⟨first, second, v, rfl, hfirst, h⟩ := h.of_bind
    obtain ⟨second, last, vs, rfl, hsecond, h⟩ := h.of_bind
    obtain ⟨rfl, rfl⟩ := h.of_done
    rw [List.append_nil, planeMoves_append]
    exact (refresh_shows hfirst).append (refreshAll_shows hsecond)

theorem view_shows {m : Monitor} {result : Except MonitorError MonitorView}
    (h : Plays (Service.view m).run moves result) (hrow : Chained s moves s') :
    ∃ view, result = .ok view ∧
      AreShown (s.latestOf m) (planeMoves moves) view.latestRun.toList := by
  rw [view_run] at h
  obtain ⟨clock, rest, rfl, h, hrow⟩ := h.of_store_row hrow
  rw [planeMoves_cons_none rfl, Store.latestOf]
  simp only [StoreCall.perform] at h
  cases hlatest : s.latestRun m.id with
  | none =>
    rw [hlatest] at h
    obtain ⟨rfl, rfl⟩ := h.of_done
    exact ⟨_, rfl, .nil⟩
  | some r =>
    rw [hlatest] at h
    obtain ⟨first, second, v, rfl, hfirst, h⟩ := h.of_bind
    obtain ⟨rfl, rfl⟩ := h.of_done
    rw [List.append_nil]
    exact ⟨_, rfl, refresh_shows hfirst⟩

theorem viewAll_shows : ∀ {ms : List Monitor} {result : Except MonitorError (List MonitorView)}
    {moves : List Move} {s s' : Store}, Plays (viewAll ms).run moves result → Chained s moves s' →
      ∃ views, result = .ok views ∧ AreShown (ms.flatMap s.latestOf) (planeMoves moves)
        (views.flatMap fun view => view.latestRun.toList)
  | [], result, moves, s, s', h, hrow => by
    obtain ⟨rfl, rfl⟩ := h.of_done
    exact ⟨[], rfl, .nil⟩
  | m :: ms, result, moves, s, s', h, hrow => by
    rw [viewAll, Operation.run_bind] at h
    obtain ⟨first, second, viewed, rfl, hfirst, h⟩ := h.of_bind
    obtain ⟨s₁, hrow₁, hrow₂⟩ := hrow.of_append
    -- the store is as it was when the others are viewed
    obtain rfl := hrow₁.eq_of_allIdle ((readsOnly_view m).allIdle hfirst)
    obtain ⟨view, rfl, hshown⟩ := view_shows hfirst hrow₁
    rw [Operation.onward_ok, Operation.run_bind] at h
    obtain ⟨second, last, others, rfl, hsecond, h⟩ := h.of_bind
    obtain ⟨s₂, hrow₂, -⟩ := hrow₂.of_append
    obtain ⟨views, rfl, hothers⟩ := viewAll_shows hsecond hrow₂
    obtain ⟨rfl, rfl⟩ := h.of_done
    rw [List.append_nil, planeMoves_append]
    exact ⟨view :: views, rfl, hshown.append hothers⟩

/-- An operation that begins with a monitor fails if there is none of that name, and otherwise goes
on with it. -/
theorem loadMonitor_finds {α : Type} {org name : String} {f : Monitor → Operation α}
    {result : Except MonitorError α} (h : Plays (loadMonitor org name >>= f).run moves result)
    (hrow : Chained s moves s') :
    (s.findByName org name = none ∧ ∃ e, result = .error e) ∨
      ∃ m rest, s.findByName org name = some m ∧ planeMoves moves = planeMoves rest ∧
        Plays (f m).run rest result ∧ Chained s rest s' := by
  rw [loadMonitor_bind] at h
  obtain ⟨clock, rest, rfl, h, hrow⟩ := h.of_store_row hrow
  simp only [StoreCall.perform] at h
  cases hfound : s.findByName org name with
  | none =>
    rw [hfound] at h
    exact .inl ⟨rfl, _, h.of_done.2⟩
  | some m =>
    rw [hfound] at h
    exact .inr ⟨m, rest, rfl, rfl, h, hrow⟩

end Service

/-- An operation fails if the monitor that it names is not there, and otherwise shows what is to be
shown. -/
theorem Showing.areShown {x : Showing} {result : Except MonitorError x.activity.Result}
    (h : Plays x.activity.operation.run moves result) (hrow : Chained s moves s') :
    (¬ x.IsFound s ∧ ∃ e, result = .error e) ∨
      ∃ v, result = .ok v ∧ AreShown (x.exhibits s) (planeMoves moves) (x.shown v) := by
  cases x with
  | get org name =>
    obtain ⟨hnone, hfails⟩ | ⟨m, rest, hfound, hcalls, h, hrow⟩ := Service.loadMonitor_finds h hrow
    · exact .inl ⟨by simp [IsFound, hnone], hfails⟩
    · rw [exhibits, hfound, hcalls, Option.toList_some, List.flatMap_singleton]
      exact .inr (Service.view_shows h hrow)
  | list org filter =>
    obtain ⟨rest, hcalls, h, hrow⟩ := h.of_store_step hrow fun _ => rfl
    rw [hcalls]
    exact .inr (Service.viewAll_shows h hrow)
  | runs org name limit =>
    obtain ⟨hnone, hfails⟩ | ⟨m, rest, hfound, hcalls, h, hrow⟩ := Service.loadMonitor_finds h hrow
    · exact .inl ⟨by simp [IsFound, hnone], hfails⟩
    · obtain ⟨rest, hcalls', h, hrow⟩ := h.of_store_step hrow fun _ => rfl
      rw [exhibits, hfound, hcalls, hcalls', Option.toList_some, List.flatMap_singleton]
      obtain ⟨first, second, shown, rfl, hfirst, h⟩ := h.of_bind
      obtain ⟨rfl, rfl⟩ := h.of_done
      rw [List.append_nil]
      exact .inr ⟨shown, rfl, Service.refreshAll_shows hfirst⟩

end

/-! ## What is to be shown -/

namespace Store

variable {s : Store} {m : Monitor} {x : Exhibit}

theorem of_mem_latestOf (hx : x ∈ s.latestOf m) :
    x.run ∈ s.runs ∧ x.run.monitorId = m.id ∧ x.org = m.org := by
  rw [latestOf, Option.mem_toList, Option.map_eq_some_iff] at hx
  obtain ⟨r, hlatest, rfl⟩ := hx
  obtain ⟨hr, howner⟩ := of_latestRun hlatest
  exact ⟨hr, howner, rfl⟩

end Store

/-- What is to be shown is stored, and its organization is that of its monitor. -/
theorem Showing.of_mem_exhibits {s : Store} {x : Showing} {e : Exhibit} (he : e ∈ x.exhibits s) :
    e.run ∈ s.runs ∧ ∃ m ∈ s.monitors, m.id = e.run.monitorId ∧ m.org = e.org := by
  cases x with
  | get org name =>
    obtain ⟨m, hm, he⟩ := List.mem_flatMap.1 he
    obtain ⟨hr, howner, horg⟩ := Store.of_mem_latestOf he
    have hm := List.mem_of_find?_eq_some (Option.mem_toList.1 hm)
    exact ⟨hr, m, hm, howner.symm, horg.symm⟩
  | list org filter =>
    obtain ⟨m, hm, he⟩ := List.mem_flatMap.1 he
    obtain ⟨hr, howner, horg⟩ := Store.of_mem_latestOf he
    rw [Store.listMonitors, List.mem_mergeSort] at hm
    exact ⟨hr, m, (List.mem_filter.1 hm).1, howner.symm, horg.symm⟩
  | runs org name limit =>
    obtain ⟨m, hm, he⟩ := List.mem_flatMap.1 he
    obtain ⟨r, hr, rfl⟩ := List.mem_map.1 he
    obtain ⟨hstored, howner⟩ := Store.of_mem_listRuns hr
    have hfound := Option.mem_toList.1 hm
    exact ⟨hstored, m, List.mem_of_find?_eq_some hfound, howner.symm,
      (Store.named_of_findByName hfound).1⟩

/-- In a proper store a run is to be shown in the name of the organization to which its job
belongs. -/
theorem Showing.eq_of_mem_exhibits {s : Store} (hs : s.IsProper) {x : Showing} {e : Exhibit}
    (he : e ∈ x.exhibits s) {entry : InFlightRun} (hentry : entry ∈ s.inFlight)
    (hid : e.run.id = entry.run.id) : e = ⟨entry.org, entry.run⟩ := by
  obtain ⟨org, r⟩ := e
  obtain ⟨hr, m, hm, howner, rfl⟩ := of_mem_exhibits he
  obtain ⟨hstored, -, m', hfound, horg⟩ := Store.mem_inFlight.1 hentry
  obtain rfl : r = entry.run := List.inj_on_of_nodup_map hs.runIds hr hstored hid
  have hown : s.findMonitor entry.run.monitorId = some m :=
    howner ▸ Store.findMonitor_of_mem hs.ids hm
  obtain rfl : m = m' := Option.some.inj (hown.symm.trans hfound)
  rw [horg]

/-! ## The statement -/

/-- Whether an activity is one of reading. -/
def Activity.isReading : Activity → Bool
  | get _ _ | list _ _ | runs _ _ _ | logs _ _ _ => true
  | cycle _ | create _ _ _ | update _ _ _ | delete _ _ | stop _ _ | start _ _ | rerun _ _ _ _ =>
    false

/-- An activity of reading makes no call that changes anything, and comes to an end. -/
theorem Activity.readsOnly_of_isReading {a : Activity} (h : a.isReading = true) :
    a.operation.run.ReadsOnly := by
  cases a with
  | get org name => exact Service.readsOnly_get org name
  | list org filter => exact Service.readsOnly_list org filter
  | runs org name limit => exact Service.readsOnly_runs org name limit
  | logs org name id => exact Service.readsOnly_logs org name id
  | _ => cases h

/-- The operation, carried out on the store and left to itself, makes these calls of the workflow
plane and shows these runs. -/
def Showing.Shows (x : Showing) (s : Store) (calls : List Move.OfPlane) (shown : List Run) : Prop :=
  ∃ moves result s', Plays x.activity.operation.run moves (.ok result) ∧ Chained s moves s' ∧
    calls = planeMoves moves ∧ shown = x.shown result

/-- The reconciliation of a run in flight, left to itself, is given the answer and leaves the second
store. -/
def Store.Reconciles (s : Store) (entry : InFlightRun) (reply : Except PlaneError Json)
    (s' : Store) : Prop :=
  ∃ moves result, Plays (Service.reconcile entry).run moves result ∧ Chained s moves s' ∧
    planeMoves moves = [⟨.resource (.run entry.org entry.run.jobName), reply⟩]

/-- Among the calls, those that ask about the run in flight are given the answer. -/
def InFlightRun.IsAnswered (entry : InFlightRun) (reply : Except PlaneError Json)
    (calls : List Move.OfPlane) : Prop :=
  ∀ reply', ⟨.resource (.run entry.org entry.run.jobName), reply'⟩ ∈ calls → reply' = reply

/-- With the answer, reading the run in flight before its reconciliation and after it agrees with
what is stored for it then. -/
structure InFlightRun.ReadsAs (entry : InFlightRun) (reply : Except PlaneError Json) (s s' : Store)
    (r : Run) : Prop where
  stored : s'.findRun entry.run.id = some r
  /-- Before, it is shown as it will be stored, but for the instant of its last change. -/
  before : ∀ (x : Showing) calls shown, x.Shows s calls shown → entry.IsAnswered reply calls →
    ∀ v ∈ shown, v.id = entry.run.id → { v with updatedAt := r.updatedAt } = r
  /-- Afterwards it is shown as it is stored. -/
  after : ∀ (x : Showing) calls shown, x.Shows s' calls shown → entry.IsAnswered reply calls →
    ∀ v ∈ shown, v.id = entry.run.id → v = r

section

variable {s s' : Store} {entry : InFlightRun} {reply : Except PlaneError Json}

theorem Showing.Shows.areShown {x : Showing} {calls : List Move.OfPlane} {shown : List Run}
    (h : x.Shows s calls shown) : AreShown (x.exhibits s) calls shown := by
  obtain ⟨moves, result, s', h, hrow, rfl, rfl⟩ := h
  obtain ⟨-, e, heq⟩ | ⟨v, heq, hshown⟩ := x.areShown h hrow
  · cases heq
  · cases heq
    exact hshown

/-- Whatever the workflow plane answers, an operation whose monitor is there shows something. -/
theorem Showing.exists_shows {x : Showing} (hfound : x.IsFound s)
    (plane : (c : PlaneCall) → Except PlaneError c.Answer) :
    ∃ calls shown, x.Shows s calls shown ∧ ∀ call ∈ calls, call.2 = plane call.1 := by
  have hreads : x.activity.isReading = true := by cases x <;> rfl
  obtain ⟨moves, result, s', h, hrow, hcalls⟩ :=
    (Activity.readsOnly_of_isReading hreads).returns.exists_plays plane s
  obtain ⟨hmissing, -⟩ | ⟨v, rfl, -⟩ := x.areShown h hrow
  · exact absurd hfound hmissing
  · exact ⟨_, _, ⟨moves, v, s', h, hrow, rfl, rfl⟩, hcalls⟩

/-- A run in flight is shown as an answer about it lets it be seen. -/
theorem Showing.Shows.of_inFlight {x : Showing} {calls : List Move.OfPlane} {shown : List Run}
    (h : x.Shows s calls shown) (hs : s.IsProper) (hentry : entry ∈ s.inFlight)
    (hanswer : entry.IsAnswered reply calls) {v : Run} (hv : v ∈ shown)
    (hid : v.id = entry.run.id) : ∃ now, v = entry.run.seenBy reply now := by
  obtain ⟨e, he, hshown⟩ := h.areShown.exists_exhibit hv
  obtain rfl := Showing.eq_of_mem_exhibits hs he hentry (hshown.id_eq.symm.trans hid)
  cases hshown with
  | ended hended => cases hended.symm.trans (Store.mem_inFlight.1 hentry).2.1
  | asked now _ hcall => exact ⟨now, by rw [hanswer _ hcall]⟩

/-- A reconciliation with an answer is an inquiry with it. -/
theorem Store.Reconciles.exists_inquiry (h : s.Reconciles entry reply s')
    (hstored : s.HasRun entry.run.id) :
    ∃ x : Inquiry, x.entry = entry ∧ x.reply = reply ∧ s' = x.perform s := by
  obtain ⟨moves, result, h, hrow, hcalls⟩ := h
  obtain ⟨x, rfl, hexchange, hperform, -⟩ := Service.reconcile_plays h hrow hstored
  rw [hexchange, List.singleton_inj, Inquiry.exchange] at hcalls
  exact ⟨x, rfl, eq_of_heq (Sigma.mk.inj hcalls).2, hperform⟩

/-- A workflow plane that gives one answer whenever it is asked how a job is getting on. -/
def PlaneCall.answered (reply : Except PlaneError Json) :
    (c : PlaneCall) → Except PlaneError c.Answer
  | resource _ => reply
  | c => Surroundings.accepting.plane c

/-- Whatever the answer, a reconciliation with it comes to an end. -/
theorem Store.exists_reconciles (hstored : s.HasRun entry.run.id)
    (reply : Except PlaneError Json) : ∃ s', s.Reconciles entry reply s' := by
  obtain ⟨moves, result, s', h, hrow, hcalls⟩ :=
    (Service.reconcile_returns entry).exists_plays (PlaneCall.answered reply) s
  obtain ⟨x, rfl, hexchange, -, -⟩ := Service.reconcile_plays h hrow hstored
  have hreply : x.reply = reply := hcalls x.exchange (hexchange ▸ .head _)
  exact ⟨s', moves, result, h, hrow, by rw [hexchange, Inquiry.exchange, hreply]⟩

namespace Inquiry

/-- An inquiry keeps the store proper. -/
theorem isProper_perform (hs : s.IsProper) (x : Inquiry) : (x.perform s).IsProper where
  ids := hs.ids
  names := hs.names
  owned := fun r' hr' => by
    obtain ⟨r, hr, rfl⟩ := List.mem_map.1 hr'
    obtain ⟨m, hm, howner⟩ := hs.owned r hr
    exact ⟨m, hm, howner.trans (congrArg RunOrigin.monitorId settle_origin).symm⟩
  runIds := by
    rw [perform, List.map_map, show Run.id ∘ x.settle = Run.id from funext fun _ => settle_id]
    exact hs.runIds

/-- Reading a run in flight agrees with an inquiry about it. -/
theorem readsAs {x : Inquiry} (hs : s.IsProper) (hentry : x.entry ∈ s.inFlight) :
    x.entry.ReadsAs x.reply s (x.perform s) (x.settle x.entry.run) := by
  obtain ⟨hstored, -, m, hfound, horg⟩ := Store.mem_inFlight.1 hentry
  have hs' := x.isProper_perform hs
  have hsettled : x.settle x.entry.run ∈ (x.perform s).runs := List.mem_map_of_mem hstored
  refine ⟨?_, fun y calls shown hshows hanswer v hv hid => ?_,
    fun y calls shown hshows hanswer v hv hid => ?_⟩
  · rw [← Store.findRun_of_mem hs'.runIds hsettled, settle_id]
  · obtain ⟨now, rfl⟩ := hshows.of_inFlight hs hentry hanswer hv hid
    exact (x.settle_eq_seenBy now).symm
  · obtain ⟨e, he, hshown⟩ := hshows.areShown.exists_exhibit hv
    have hrun : e.run = x.settle x.entry.run :=
      List.inj_on_of_nodup_map hs'.runIds (Showing.of_mem_exhibits he).1 hsettled
        (by rw [settle_id, ← hid, hshown.id_eq])
    cases hshown with
    | ended => exact hrun
    | asked now hopen hcall =>
      -- a run that is still in flight is asked about again, and there is no news
      have hstill : ⟨x.settle x.entry.run, x.entry.org⟩ ∈ (x.perform s).inFlight :=
        Store.mem_inFlight.2 ⟨hsettled, hrun ▸ hopen, m,
          (congrArg s.findMonitor (congrArg RunOrigin.monitorId settle_origin)).trans hfound, horg⟩
      obtain rfl := Showing.eq_of_mem_exhibits hs' he hstill (congrArg Run.id hrun)
      rw [show Run.jobName _ = x.entry.run.jobName from
        congrArg RunOrigin.jobName settle_origin] at hcall
      rw [hanswer _ hcall]
      exact Run.seenBy_of_after_eq x.settle_after now

end Inquiry

end

/-- Reading agrees with reconciling. No operation of reading changes anything, whatever else goes
on. An operation that shows runs succeeds if the monitor that it names is there, whatever the
workflow plane answers, and shows those that are stored, one by one: one that has ended as it is
stored, without a question to the workflow plane, and one in flight with the status and the message
that are stored for it after a reconciliation with the same answer, be it a document of any kind or
a failure; and reading it after that shows the same again. -/
theorem reads_agree_with_reconciliation {s : Store} (hs : s.IsProper) :
    (∀ a : Activity, a.isReading = true → a.operation.run.Returns ∧
      ∀ moves result, Plays a.operation.run moves result → AllIdle moves) ∧
    (∀ x : Showing, x.IsFound s → ∀ plane : (c : PlaneCall) → Except PlaneError c.Answer,
      ∃ calls shown, x.Shows s calls shown ∧ ∀ call ∈ calls, call.2 = plane call.1) ∧
    (∀ (x : Showing) calls shown, x.Shows s calls shown → AreShown (x.exhibits s) calls shown) ∧
    (∀ r ∈ s.runs, r.status.isTerminal = false → ∃ entry ∈ s.inFlight, entry.run = r) ∧
    ∀ entry ∈ s.inFlight, ∀ reply, (∃ s', s.Reconciles entry reply s') ∧
      ∀ s', s.Reconciles entry reply s' → ∃ r, entry.ReadsAs reply s s' r := by
  refine ⟨fun a ha => ?_, fun x hfound plane => Showing.exists_shows hfound plane,
    fun x calls shown hshows => hshows.areShown, fun r hr hopen => ?_, fun entry hentry reply => ?_⟩
  · have hreads := Activity.readsOnly_of_isReading ha
    exact ⟨hreads.returns, fun moves result h => hreads.allIdle h⟩
  · obtain ⟨m, hm, howner⟩ := hs.owned r hr
    have hfound := Store.findMonitor_of_mem hs.ids hm
    exact ⟨⟨r, m.org⟩, Store.mem_inFlight.2 ⟨hr, hopen, m, howner ▸ hfound, rfl⟩, rfl⟩
  · have hstored : s.HasRun entry.run.id := ⟨entry.run, (Store.mem_inFlight.1 hentry).1, rfl⟩
    refine ⟨Store.exists_reconciles hstored reply, fun s' hrec => ?_⟩
    obtain ⟨x, rfl, rfl, rfl⟩ := hrec.exists_inquiry hstored
    exact ⟨_, Inquiry.readsAs hs hentry⟩

/-- An hourly monitor, a run of it that has ended and one that has not. -/
def Store.underWay : Store where
  monitors := [.hourly 1000 "tone" ⟨10800, 0⟩]
  runs :=
    [{ Run.pending ⟨1⟩ ⟨1000⟩ "tone-00000001" ⟨⟨0, 0⟩, ⟨3420, 0⟩⟩ [.plain "tone" "Tone"]
          ⟨3600, 0⟩ with
        status := .succeeded },
      .pending ⟨2⟩ ⟨1000⟩ "tone-00000002" ⟨⟨3420, 0⟩, ⟨7020, 0⟩⟩ [.plain "tone" "Tone"] ⟨7200, 0⟩]

/-- The run that has not ended. -/
def InFlightRun.underWay : InFlightRun where
  run :=
    .pending ⟨2⟩ ⟨1000⟩ "tone-00000002" ⟨⟨3420, 0⟩, ⟨7020, 0⟩⟩ [.plain "tone" "Tone"] ⟨7200, 0⟩
  org := "acme"

/-- Of a run that is reported to have failed. -/
theorem reads_agree_with_reconciliation_failed :
    let s := Store.underWay
    let entry := InFlightRun.underWay
    let reply := .ok (Site.finished "WorkflowFailed" "out of memory")
    s.IsProper ∧ entry ∈ s.inFlight ∧
      ∃ calls v s' r, (Showing.get "acme" "tone").Shows s calls [v] ∧
        entry.IsAnswered reply calls ∧ v.id = entry.run.id ∧ s.Reconciles entry reply s' ∧
        entry.ReadsAs reply s s' r ∧ r.status = .failed ∧
        r.errorMessage = some "WorkflowFailed: out of memory" := by
  intro s entry reply
  have hs : s.IsProper := ⟨⟨by decide, by decide, by decide⟩, by decide⟩
  have hentry : entry ∈ s.inFlight :=
    Store.mem_inFlight.2 ⟨.tail _ (.head _), rfl, .hourly 1000 "tone" ⟨10800, 0⟩, rfl, rfl⟩
  let v := entry.run.seenBy reply ⟨7300, 0⟩
  have hshows : (Showing.get "acme" "tone").Shows s
      [⟨.resource (.run "acme" "tone-00000002"), reply⟩] [v] := by
    refine ⟨[⟨.store (.findByName "acme" "tone"), .ok s.monitors.head?, s, s⟩,
      ⟨.store (.latestRun ⟨1000⟩), .ok (some entry.run), s, s⟩,
      ⟨.plane (.resource (.run "acme" "tone-00000002")), reply, s, s⟩, ⟨.now, ⟨7300, 0⟩, s, s⟩],
      ⟨.hourly 1000 "tone" ⟨10800, 0⟩, .active, some v⟩, s, ?_, ?_, rfl, rfl⟩
    · show Plays (Service.get "acme" "tone").run _ _
      rw [Service.get, Service.loadMonitor_bind]
      refine .call ⟨⟨0, 0⟩, rfl⟩ ?_
      show Plays (Service.view _).run _ _
      rw [Service.view_run]
      exact .call ⟨⟨0, 0⟩, rfl⟩ (.call rfl (.call rfl (.done _)))
    · exact ⟨rfl, rfl, rfl, rfl, rfl⟩
  have hanswer : entry.IsAnswered reply [⟨.resource (.run "acme" "tone-00000002"), reply⟩] := by
    intro reply' hmem
    cases List.mem_singleton.1 hmem
    rfl
  obtain ⟨⟨s', hrec⟩, hreads⟩ := (reads_agree_with_reconciliation hs).2.2.2.2 entry hentry reply
  obtain ⟨r, hr⟩ := hreads s' hrec
  have hsame := hr.before _ _ _ hshows hanswer v (.head _) rfl
  have hseen : v.status = .failed ∧ v.errorMessage = some "WorkflowFailed: out of memory" := by
    decide +kernel
  exact ⟨hs, hentry, _, v, s', r, hshows, hanswer, rfl, hrec, hr,
    (congrArg Run.status hsame).symm.trans hseen.1,
    (congrArg Run.errorMessage hsame).symm.trans hseen.2⟩

end TraceWatch
