import TraceWatch.Proofs.Cycle.Repetition
import TraceWatch.Proofs.Monitors.Admission
import TraceWatch.Proofs.Runs.Reading
import TraceWatch.Proofs.Runs.WellFormed
import TraceWatch.Proofs.System.Instant

/-!
# What is shown of a change and what is stored

An operation that changes a monitor shows it as it has made it, and the store is changed by a call
of its own. `Site.change_shows_what_is_stored` says that the two come to the same: if nobody else
calls meanwhile and the clock stands still, the monitor that is shown is the one that is stored
then, and whoever asks for it at once is shown the same. An update reads the monitor again before it
shows it; a stop, a start and a creation show a copy.
-/

namespace TraceWatch

open Program

/-! ## One monitor in place of another -/

/-- A monitor takes the place of another in the store, and nothing else changes. -/
def Store.Replaces (s : Store) (m m' : Monitor) (s' : Store) : Prop :=
  ∃ before after, s.monitors = before ++ m :: after ∧ s' = ⟨before ++ m' :: after, s.runs⟩

namespace Store

variable {s s' : Store} {m m' : Monitor}

/-- To change the monitor with an identifier is to replace it. -/
theorem replaces_modify (hids : (s.monitors.map Monitor.id).Nodup) (hm : m ∈ s.monitors)
    (f : Monitor → Monitor) : s.Replaces m (f m) (s.modifyMonitor m.id f) := by
  obtain ⟨before, after, hsplit⟩ := List.append_of_mem hm
  rw [hsplit, List.map_append, List.map_cons, List.nodup_middle, List.nodup_cons,
    ← List.map_append] at hids
  have hkept : ∀ others ⊆ before ++ after,
      others.map (fun other => if other.id = m.id then f other else other) = others := by
    intro others hsub
    refine (List.map_congr_left fun other hother => if_neg fun hid => ?_).trans (List.map_id' _)
    exact hids.1 (List.mem_map.2 ⟨other, hsub hother, hid⟩)
  refine ⟨before, after, hsplit, ?_⟩
  rw [modifyMonitor, hsplit, List.map_append, List.map_cons, if_pos rfl,
    hkept before (List.subset_append_left _ _), hkept after (List.subset_append_right _ _)]

theorem Replaces.mem (h : s.Replaces m m' s') : m' ∈ s'.monitors := by
  obtain ⟨before, after, -, rfl⟩ := h
  exact List.mem_append_right _ (.head _)

/-- A conditional change of a schedule that is allowed replaces the monitor. -/
theorem replaces_reschedule (hids : (s.monitors.map Monitor.id).Nodup) (hm : m ∈ s.monitors)
    {may : Monitor → Bool} (hmay : may m = true) (next : Option Timestamp) (now : Timestamp) :
    s.Replaces m { m with nextRun := next, updatedAt := now }
      (s.reschedule m.id may next now).1 := by
  rw [reschedule, findMonitor_of_mem hids hm, Option.any_some, if_pos hmay]
  exact replaces_modify hids hm fun m => { m with nextRun := next, updatedAt := now }

end Store

/-- The monitor with the fields that the edit sets, edited at the instant. -/
def Edit.revised (edit : Edit) (m : Monitor) (t : Timestamp) : Monitor :=
  { m with
    displayName := edit.displayName.getD m.displayName
    evaluators := edit.evaluators.getD m.evaluators
    samplingRate := edit.samplingRate.getD m.samplingRate
    interval := edit.interval <|> m.interval
    updatedAt := t }

/-- To overwrite the definition of a monitor by an edit of it is to replace the monitor. -/
theorem StoreCall.replaces_updateDefinition {s : Store} {m : Monitor} (hs : s.IsConsistent)
    (hm : m ∈ s.monitors) (edit : Edit) (t now : Timestamp) :
    s.Replaces m (edit.revised m t) (perform now s (.updateDefinition (edit.revised m t))).2 := by
  have hid : (edit.revised m t).id = m.id := rfl
  simp only [perform, Store.updateDefinition, hid, Store.findMonitor_of_mem hs.ids hm,
    Option.isSome_some, if_true, change]
  exact Store.replaces_modify hs.ids hm fun stored => { stored with
    displayName := (edit.revised m t).displayName
    evaluators := (edit.revised m t).evaluators
    samplingRate := (edit.revised m t).samplingRate
    interval := (edit.revised m t).interval
    updatedAt := t }

/-- Moves in a row keep the store consistent. -/
theorem Chained.isConsistent {s' : Store} : ∀ {moves : List Move} {s : Store},
    Chained s moves s' → (∀ move ∈ moves, move.IsSound) → s.IsConsistent → s'.IsConsistent
  | [], s, hrow, _, hs => by
    rw [show s' = s from hrow]
    exact hs
  | ⟨c, answer, before, after⟩ :: rest, s, hrow, hsound, hs => by
    obtain ⟨rfl, hrest⟩ := hrow
    obtain ⟨hfirst, hsound⟩ := List.forall_mem_cons.1 hsound
    refine hrest.isConsistent hsound ?_
    cases c with
    | store d =>
      obtain ⟨now, hanswer⟩ := hfirst
      rw [show after = (d.perform now before).2 from congrArg Prod.snd hanswer]
      exact StoreCall.isConsistent_perform hs
    | _ => exact (show after = before from hfirst) ▸ hs

/-! ## Views at an instant -/

/-- What is shown at the instant of the latest run of a monitor, and the calls of the workflow plane
for it: nothing is asked about a run that has ended. -/
inductive Seen (org : String) (t : Timestamp) :
    Option Run → List Move.OfPlane → Option Run → Prop
  | none : Seen org t none [] none
  | ended {r : Run} : r.status.isTerminal = true → Seen org t (some r) [] (some r)
  | asked {r : Run} {reply : Except PlaneError Json} : r.status.isTerminal = false →
    Seen org t (some r) [⟨.resource (.run org r.jobName), reply⟩] (some (r.seenBy reply t))

/-- The calls only ask how jobs are getting on. -/
theorem Seen.onlyAsks {org : String} {t : Timestamp} {latest shown : Option Run}
    {calls : List Move.OfPlane} (h : Seen org t latest calls shown) : OnlyAsks calls := by
  intro call hcall
  cases h with
  | none | ended => cases hcall
  | asked => exact ⟨_, congrArg Sigma.fst (List.mem_singleton.1 hcall)⟩

/-- The answers that both are given about a job are the same. -/
def AnswersAgree (calls calls' : List Move.OfPlane) : Prop :=
  ∀ job reply reply', ⟨.resource job, reply⟩ ∈ calls → ⟨.resource job, reply'⟩ ∈ calls' →
    reply' = reply

/-- With the same answers the same is shown. -/
theorem Seen.eq {org : String} {t : Timestamp} {latest shown shown' : Option Run}
    {calls calls' : List Move.OfPlane} (h : Seen org t latest calls shown)
    (h' : Seen org t latest calls' shown') (hsame : AnswersAgree calls calls') :
    shown' = shown := by
  cases h with
  | none =>
    cases h'
    rfl
  | ended hended =>
    cases h' with
    | ended => rfl
    | asked hopen => cases hended.symm.trans hopen
  | asked hopen =>
    cases h' with
    | ended hended => cases hended.symm.trans hopen
    | asked => rw [hsame _ _ _ (.head _) (.head _)]

/-- The view is what is shown at the instant of the monitor of an organization with a name. -/
structure MonitorView.IsOf (view : MonitorView) (t : Timestamp) (s : Store) (org name : String)
    (calls : List Move.OfPlane) : Prop where
  found : s.findByName org name = some view.monitor
  status : view.status = view.monitor.status (view.latestRun.map Run.status)
  run : Seen org t (s.latestRun view.monitor.id) calls view.latestRun

/-- With the same answers the same view is shown. -/
theorem MonitorView.IsOf.eq {view view' : MonitorView} {t : Timestamp} {s : Store}
    {org name : String} {calls calls' : List Move.OfPlane} (h : view.IsOf t s org name calls)
    (h' : view'.IsOf t s org name calls') (hsame : AnswersAgree calls calls') : view' = view := by
  obtain ⟨m, status, shown⟩ := view
  obtain ⟨m', status', shown'⟩ := view'
  obtain rfl : m' = m := Option.some.inj (h'.found.symm.trans h.found)
  obtain rfl : shown' = shown := h.run.eq h'.run hsame
  obtain rfl : status' = status := h'.status.trans h.status.symm
  rfl

/-- The view after an answer about the latest run has been seen, at the instant. -/
def MonitorView.seenBy (view : MonitorView) (reply : Except PlaneError Json) (t : Timestamp) :
    MonitorView :=
  let latest := view.latestRun.map fun r => r.seenBy reply t
  ⟨view.monitor, view.monitor.status (latest.map Run.status), latest⟩

/-- A view that shows the latest run as it is stored is shown again with an answer about the run, if
it has one that has not ended. -/
theorem MonitorView.IsOf.again {view view' : MonitorView} {t : Timestamp} {s : Store}
    {org name : String} {calls : List Move.OfPlane} (h : view'.IsOf t s org name calls)
    (hfound : s.findByName org name = some view.monitor)
    (hstatus : view.status = view.monitor.status (view.latestRun.map Run.status))
    (hlatest : s.latestRun view.monitor.id = view.latestRun)
    (hopen : ∀ r, view.latestRun = some r → r.status.isTerminal = false) :
    (view.latestRun = none → view' = view) ∧
      ∀ r, view.latestRun = some r → ∃ reply,
        ⟨.resource (.run org r.jobName), reply⟩ ∈ calls ∧ view' = view.seenBy reply t := by
  obtain ⟨m, status, latest⟩ := view
  obtain ⟨m', status', shown⟩ := view'
  obtain rfl : m' = m := Option.some.inj (h.found.symm.trans hfound)
  obtain rfl : status = m'.status (latest.map Run.status) := hstatus
  obtain rfl : status' = m'.status (shown.map Run.status) := h.status
  have hseen : Seen org t latest calls shown := by
    have hrun := h.run
    rwa [hlatest] at hrun
  constructor
  · rintro rfl
    cases hseen
    rfl
  · rintro r rfl
    cases hseen with
    | ended hended => cases hended.symm.trans (hopen r rfl)
    | asked => exact ⟨_, .head _, rfl⟩

/-- An operation on a monitor with a name that succeeds has found it, and goes on with it. -/
theorem Program.PlaysAt.of_find {α : Type} {org name : String} {t : Timestamp} {s s' : Store}
    {next : Monitor → Program (Except MonitorError α)} {moves : List Move} {v : α}
    (h : PlaysAt t s (.call (.store (.findByName org name)) fun
      | .error e => .done (.error (.store e))
      | .ok none => .done (.error (.monitorNotFound org name))
      | .ok (some m) => next m) moves (.ok v) s') :
    ∃ m rest, s.findByName org name = some m ∧ planeMoves moves = planeMoves rest ∧
      PlaysAt t s (next m) rest (.ok v) s' := by
  obtain ⟨rest, rfl, h₁⟩ := h.of_store
  simp only [StoreCall.perform] at h₁
  cases hfound : s.findByName org name with
  | none =>
    rw [hfound] at h₁
    cases h₁.of_done.2.1
  | some m =>
    rw [hfound] at h₁
    exact ⟨m, rest, rfl, planeMoves_cons_none rfl, h₁⟩

namespace Service

variable {org name : String} {t : Timestamp} {s s' : Store} {moves : List Move} {m : Monitor}

theorem refresh_at {r v : Run} (h : PlaysAt t s (refresh org r) moves v s') :
    s' = s ∧ Seen org t (some r) (planeMoves moves) (some v) := by
  unfold refresh at h
  split at h
  · next hended =>
    obtain ⟨rfl, rfl, rfl⟩ := h.of_done
    exact ⟨rfl, .ended hended⟩
  · next hopen =>
    have hopen : r.status.isTerminal = false := by simpa using hopen
    obtain ⟨reply, rest, rfl, h₁⟩ := h.of_plane
    cases reply with
    | error e =>
      obtain ⟨rfl, rfl, rfl⟩ := h₁.of_done
      exact ⟨rfl, .asked hopen⟩
    | ok report =>
      obtain ⟨rest, rfl, h₂⟩ := h₁.of_now
      obtain ⟨rfl, rfl, rfl⟩ := h₂.of_done
      exact ⟨rfl, .asked hopen⟩

/-- A monitor that is found under a name is shown with its latest run. -/
theorem view_at {result : Except MonitorError MonitorView}
    (h : PlaysAt t s (Service.view m).run moves result s')
    (hfound : s.findByName org name = some m) :
    s' = s ∧ ∃ view, result = .ok view ∧ view.monitor = m ∧
      view.IsOf t s org name (planeMoves moves) := by
  obtain ⟨rfl, -⟩ := Store.named_of_findByName hfound
  rw [view_run] at h
  obtain ⟨rest, rfl, h₁⟩ := h.of_store
  rw [planeMoves_cons_none rfl]
  simp only [StoreCall.perform] at h₁
  cases hlatest : s.latestRun m.id with
  | none =>
    rw [hlatest] at h₁
    obtain ⟨rfl, rfl, rfl⟩ := h₁.of_done
    exact ⟨rfl, _, rfl, rfl, hfound, rfl, by rw [hlatest]; exact .none⟩
  | some r =>
    rw [hlatest] at h₁
    obtain ⟨first, second, v, s₁, rfl, hfirst, h₂⟩ := h₁.of_bind
    obtain ⟨rfl, rfl, rfl⟩ := h₂.of_done
    obtain ⟨rfl, hseen⟩ := refresh_at hfirst
    rw [List.append_nil]
    exact ⟨rfl, _, rfl, rfl, hfound, rfl, by rw [hlatest]; exact hseen⟩

/-- A monitor that is there is shown. -/
theorem get_at {result : Except MonitorError MonitorView}
    (h : PlaysAt t s (get org name).run moves result s')
    (hfound : s.findByName org name = some m) :
    s' = s ∧ ∃ view, result = .ok view ∧ view.monitor = m ∧
      view.IsOf t s org name (planeMoves moves) := by
  rw [get, loadMonitor_bind] at h
  obtain ⟨rest, rfl, h₁⟩ := h.of_store
  simp only [StoreCall.perform, hfound] at h₁
  rw [planeMoves_cons_none rfl]
  exact view_at h₁ hfound

/-- An update that succeeds has replaced its monitor by the one with the fields that it sets, and
shows that. -/
theorem update_at {edit : Edit} {view : MonitorView} (hs : s.IsConsistent)
    (h : PlaysAt t s (update org name edit).run moves (.ok view) s') :
    ∃ m, s.findByName org name = some m ∧ view.monitor = edit.revised m t ∧
      s.Replaces m view.monitor s' ∧ view.IsOf t s' org name (planeMoves moves) := by
  rw [update_run] at h
  obtain ⟨m, rest, hfound, hquiet, h₁⟩ := h.of_find
  rw [hquiet]
  cases hcheck : edit.check m with
  | error violation =>
    rw [hcheck] at h₁
    cases h₁.of_done.2.1
  | ok =>
    rw [hcheck] at h₁
    obtain ⟨rest, rfl, h₂⟩ := h₁.of_now
    obtain ⟨rest, rfl, h₃⟩ := h₂.of_store
    rw [planeMoves_cons_none rfl, planeMoves_cons_none rfl]
    have hm : m ∈ s.monitors := List.mem_of_find?_eq_some hfound
    obtain ⟨horg, hname⟩ := Store.named_of_findByName hfound
    have hrevised : { edit.apply m with updatedAt := t } = edit.revised m t := rfl
    have hid : (edit.revised m t).id = m.id := rfl
    rw [hrevised, StoreCall.updateDefinition_answer hm hid] at h₃
    have hreplaces := StoreCall.replaces_updateDefinition hs hm edit t t
    have hagain := (StoreCall.isConsistent_perform hs).findByName_eq hreplaces.mem
    obtain ⟨rfl, view, hview, hmonitor, hof⟩ := get_at h₃ (horg ▸ hname ▸ hagain)
    cases hview
    exact ⟨m, hfound, hmonitor, hmonitor ▸ hreplaces, hof⟩

end Service

/-! ## Stops and starts -/

namespace Switch

variable {sw : Switch} {org name : String} {t : Timestamp} {s s' : Store} {moves : List Move}
  {m : Monitor}

/-- The monitor with its schedule switched at the instant: it is off it, or due at once. -/
def switched (m : Monitor) (t : Timestamp) : Switch → Monitor
  | off => { m with nextRun := none, updatedAt := t }
  | on => { m with nextRun := some t, updatedAt := t }

theorem turn_eq {turned : Monitor} (h : sw.turn m t = .ok turned) : turned = sw.switched m t := by
  cases sw with
  | off => exact Service.suspend_eq h
  | on => exact Service.resume_eq h

/-- The conditional call of a switch, if it is made, replaces the monitor by what the operation
expects it to be. -/
theorem write_at {answer : Except StoreError Bool} (hs : s.IsConsistent) (hm : m ∈ s.monitors)
    (h : PlaysAt t s (sw.write (sw.switched m t) t) moves answer s') :
    planeMoves moves = [] ∧ (answer = .ok true → s.Replaces m (sw.switched m t) s') := by
  cases sw with
  | off =>
    obtain ⟨rest, rfl, h₁⟩ := h.of_store
    obtain ⟨rfl, rfl, rfl⟩ := h₁.of_done
    refine ⟨rfl, fun hmade => ?_⟩
    have hmay : (s.suspend m.id t).2 = true := Except.ok.inj hmade
    rw [Store.suspend, StoreCall.reschedule_answer hs.ids hm] at hmay
    exact Store.replaces_reschedule hs.ids hm hmay none t
  | on =>
    obtain ⟨rest, rfl, h₁⟩ := h.of_store
    obtain ⟨rfl, rfl, rfl⟩ := h₁.of_done
    refine ⟨rfl, fun hmade => ?_⟩
    have hmay : (s.resume m.id t t).2 = true := Except.ok.inj hmade
    rw [Store.resume, StoreCall.reschedule_answer hs.ids hm] at hmay
    exact Store.replaces_reschedule hs.ids hm hmay (some t) t

/-- A switch that succeeds has replaced its monitor by the one with its schedule switched, and shows
that. -/
theorem operation_at {view : MonitorView} (hs : s.IsConsistent)
    (h : PlaysAt t s (sw.operation org name).run moves (.ok view) s') :
    ∃ m, s.findByName org name = some m ∧ view.monitor = sw.switched m t ∧
      s.Replaces m view.monitor s' ∧ view.IsOf t s' org name (planeMoves moves) := by
  rw [operation_run] at h
  obtain ⟨m, rest, hfound, hquiet, h₁⟩ := h.of_find
  rw [hquiet]
  obtain ⟨rest, rfl, h₂⟩ := h₁.of_now
  rw [planeMoves_cons_none rfl]
  have hm : m ∈ s.monitors := List.mem_of_find?_eq_some hfound
  obtain ⟨horg, hname⟩ := Store.named_of_findByName hfound
  cases hturn : sw.turn m t with
  | error f =>
    rw [hturn] at h₂
    cases h₂.of_done.2.1
  | ok turned =>
    obtain rfl := turn_eq hturn
    rw [hturn] at h₂
    obtain ⟨first, second, answer, s₁, rfl, hwrite, h₃⟩ := h₂.of_bind
    obtain ⟨hquiet, hreplaces⟩ := write_at hs hm hwrite
    rw [planeMoves_append, hquiet, List.nil_append]
    rcases answer with e | _ | _
    · cases h₃.of_done.2.1
    · -- the operation has come too late, and fails
      dsimp only at h₃
      rw [← Operation.run_bind, Service.loadMonitor_bind] at h₃
      obtain ⟨_, _, -, -, h₄⟩ := PlaysAt.of_find h₃
      cases (PlaysAt.of_done h₄).2.1
    · have hreplaces := hreplaces rfl
      have hs₁ := hwrite.row.isConsistent hwrite.plays.isSound hs
      have hnamed : (sw.switched m t).org = org ∧ (sw.switched m t).name = name := by
        cases sw <;> exact ⟨horg, hname⟩
      have hstored := hs₁.findByName_eq hreplaces.mem
      rw [hnamed.1, hnamed.2] at hstored
      obtain ⟨rfl, view, hview, hmonitor, hof⟩ := Service.view_at h₃ hstored
      cases hview
      exact ⟨m, hfound, hmonitor, hmonitor ▸ hreplaces, hof⟩

end Switch

/-! ## Creations -/

/-- Nothing is stored for an identifier that no monitor has. -/
theorem Store.IsConsistent.runsOf_eq_nil {s : Store} (hs : s.IsConsistent) {id : Uuid}
    (hnew : ¬ s.HasMonitor id) : s.runsOf id = [] := by
  refine List.filter_eq_nil_iff.2 fun r hr howner => hnew ?_
  rw [← of_decide_eq_true howner]
  exact hs.owned r hr

/-- A creation that succeeds shows what it has stored: the monitor, and its run, which has just been
submitted, if it has one. -/
theorem Service.create_at {template org : String} {request : NewMonitor} {t : Timestamp}
    {s s' : Store} {moves : List Move} {view : MonitorView} (hs : s.IsConsistent)
    (h : PlaysAt t s (create template org request).run moves (.ok view) s')
    (hdraws : DrawsNew s moves) :
    s'.findByName org request.name = some view.monitor ∧
      view.status = view.monitor.status (view.latestRun.map Run.status) ∧
      s'.latestRun view.monitor.id = view.latestRun ∧
      ∀ r, view.latestRun = some r → r.status = .pending := by
  have hs' := h.row.isConsistent h.plays.isSound hs
  obtain ⟨now, rest, -, hadmission⟩ := create_goes hs h.plays h.row hdraws
  generalize effects moves = es at hadmission
  cases hadmission with
  | @future _ _ m hvalid hfree hkind hyields hnew =>
    have hstored := hs'.findByName_eq (m := m) (List.mem_append_right _ (.head _))
    rw [hyields.org, hyields.name] at hstored
    refine ⟨hstored, ?_, ?_, nofun⟩
    · simp only [Option.map_none, Monitor.status, hyields.kind, hyields.nextRun, hkind]
      rfl
    · have hnone : Store.runsOf ⟨s.monitors ++ [m], s.runs⟩ m.id = [] := hs.runsOf_eq_nil hnew
      rw [Store.latestRun, hnone]
      rfl
  | @past _ _ m _ _ _ _ run hvalid hfree hkind _ _ hyields hnew _ _ howner _ _ hpending =>
    have hstored := hs'.findByName_eq (m := m) (List.mem_append_right _ (.head _))
    rw [hyields.org, hyields.name] at hstored
    refine ⟨hstored, ?_, ?_, ?_⟩
    · simp only [Option.map_some, hpending, Monitor.status, hyields.kind, hkind]
    · have hone : Store.runsOf ⟨s.monitors ++ [m], s.runs ++ [run]⟩ m.id = [run] := by
        have hnone := hs.runsOf_eq_nil hnew
        rw [Store.runsOf] at hnone ⊢
        simp [hnone, howner]
      rw [Store.latestRun, hone]
      rfl
    · rintro r ⟨⟩
      exact hpending

/-! ## The statement -/

/-- An operation that changes a monitor and shows it. -/
inductive Change where
  | create (template org : String) (request : NewMonitor)
  | update (org name : String) (edit : Edit)
  | stop (org name : String)
  | start (org name : String)

namespace Change

@[reducible]
def activity : Change → Activity
  | create template org request => .create template org request
  | update org name edit => .update org name edit
  | stop org name => .stop org name
  | start org name => .start org name

/-- What is shown with a result. -/
def view : (x : Change) → x.activity.Result → MonitorView
  | create _ _ _, view | update _ _ _, view | stop _ _, view | start _ _, view => view

/-- The organization of the monitor. -/
def org : Change → String
  | create _ org _ | update org _ _ | stop org _ | start org _ => org

/-- The name of the monitor. -/
def name : Change → String
  | create _ _ request => request.name
  | update _ name _ | stop _ name | start _ name => name

/-- Whether the monitor is a new one. -/
def isCreation : Change → Bool
  | create _ _ _ => true
  | update _ _ _ | stop _ _ | start _ _ => false

/-- The change of a stored monitor replaces it by another at the instant, which differs in the
fields that the change is about and in the instant of its last edit. -/
inductive Writes (s : Store) (t : Timestamp) (m' : Monitor) (s' : Store) : Change → Prop
  | update {org name : String} {edit : Edit} {m : Monitor} :
    s.findByName org name = some m → m' = edit.revised m t → s.Replaces m m' s' →
      Writes s t m' s' (.update org name edit)
  | stop {org name : String} {m : Monitor} :
    s.findByName org name = some m → m' = { m with nextRun := none, updatedAt := t } →
      s.Replaces m m' s' → Writes s t m' s' (.stop org name)
  | start {org name : String} {m : Monitor} :
    s.findByName org name = some m → m' = { m with nextRun := some t, updatedAt := t } →
      s.Replaces m m' s' → Writes s t m' s' (.start org name)

/-- How a change may go that succeeds at the instant: what it has shown, and what is stored. -/
inductive Course (t : Timestamp) (s : Store) (calls : List Move.OfPlane) (view : MonitorView)
    (s' : Store) : Change → Prop
  | created {template org : String} {request : NewMonitor} :
    s'.findByName org request.name = some view.monitor →
    view.status = view.monitor.status (view.latestRun.map Run.status) →
    s'.latestRun view.monitor.id = view.latestRun →
    (∀ r, view.latestRun = some r → r.status = .pending) →
      Course t s calls view s' (.create template org request)
  | changed {x : Change} : x.isCreation = false → x.Writes s t view.monitor s' →
    view.IsOf t s' x.org x.name calls → Course t s calls view s' x

/-- A change that succeeds goes so. -/
theorem course {x : Change} {t : Timestamp} {s s' : Store} {moves : List Move}
    {result : x.activity.Result} (hs : s.IsConsistent)
    (h : PlaysAt t s x.activity.operation.run moves (.ok result) s') (hdraws : DrawsNew s moves) :
    x.Course t s (planeMoves moves) (x.view result) s' := by
  cases x with
  | create template org request =>
    obtain ⟨hfound, hstatus, hlatest, hpending⟩ := Service.create_at hs h hdraws
    exact .created hfound hstatus hlatest hpending
  | update org name edit =>
    obtain ⟨m, hfound, hmonitor, hreplaces, hof⟩ := Service.update_at hs h
    exact .changed rfl (.update hfound hmonitor hreplaces) hof
  | stop org name =>
    obtain ⟨m, hfound, hmonitor, hreplaces, hof⟩ := Switch.off.operation_at hs h
    exact .changed rfl (.stop hfound hmonitor hreplaces) hof
  | start org name =>
    obtain ⟨m, hfound, hmonitor, hreplaces, hof⟩ := Switch.on.operation_at hs h
    exact .changed rfl (.start hfound hmonitor hreplaces) hof

end Change

namespace Site

variable {s s' s'' : Site} {es es' : List Event} {k k' : Nat}

/-- The monitors of a reachable site have identifiers that have been handed out. -/
theorem Reachable.monitors_issued (h : s.Reachable) :
    ∀ m ∈ s.commons.store.monitors, m.id ∈ s.commons.issued := by
  obtain ⟨g, hg, hseen⟩ := h.exists_scene
  obtain ⟨home, hid⟩ := hg.identities
  intro m hm
  rw [← hseen.commons] at hm ⊢
  exact (hid.stored m hm).1

/-- What a task draws is new to the store that it begins with. -/
theorem AreMoves.drawsNew {a : Activity} {moves : List Move}
    {rest : Program (Except MonitorError a.Result)} (h : AreMoves s s' es k a moves rest)
    (hs : s.Reachable) (hes : s.History es s') : DrawsNew s.commons.store moves := by
  intro id before after hmove
  have hid : id ∈ drawnIds moves := List.mem_filterMap.2 ⟨_, hmove, rfl⟩
  have hfresh := (hes.drawn.2.2 id (h.drawnIds_sublist.mem hid)).1
  constructor
  · rintro ⟨m, hm, rfl⟩
    exact hfresh (hs.monitors_issued m hm)
  · rintro ⟨r, hr, rfl⟩
    exact hfresh (hs.runs_issued r hr)

/-- If the workflow plane reports the same to two tasks, they are given the same answers. -/
theorem ReportsSame.answersAgree {a a' : Activity} {moves moves' : List Move}
    {rest : Program (Except MonitorError a.Result)}
    {rest' : Program (Except MonitorError a'.Result)} (h : ReportsSame es k es' k')
    (hmoves : AreMoves s s' es k a moves rest) (hmoves' : AreMoves s' s'' es' k' a' moves' rest') :
    AnswersAgree (planeMoves moves) (planeMoves moves') :=
  fun _ _ _ hreply hreply' =>
    h _ _ _ _ _ (hmoves.planeCall_mem hreply) (hmoves'.planeCall_mem hreply')

/-- A task that is left to itself submits nothing if its moves only ask. -/
theorem AreMoves.not_submits {a : Activity} {moves : List Move}
    {rest : Program (Except MonitorError a.Result)} (h : AreMoves s s' es k a moves rest)
    (halone : ∀ e ∈ es, ∀ i ∈ e.caller, i = k) (hasks : OnlyAsks (planeMoves moves)) (i : Nat)
    (a' : Activity) (spec : JobSpec) (answer : Except PlaneError JobRef) :
    .call i a' (.plane (.submit spec)) answer ∉ es := by
  intro hmem
  obtain rfl : i = k := halone _ hmem i rfl
  obtain ⟨job, hjob⟩ := hasks ⟨.submit spec, answer⟩ (by
    rw [← h.planeCalls]
    exact List.mem_filterMap.2 ⟨_, hmem, if_pos rfl⟩)
  cases hjob

/-- A change at a reachable site that is left to itself, while the clock stands still, and succeeds
shows the monitor that is then stored under its name, with the status that follows from it and from
the latest run that is shown. Whoever asks for the monitor next, at the same instant and with the
same answers of the workflow plane, is shown the same; only of a run that has just been created the
workflow plane is asked then. An update, a stop and a start change nothing in the store but the
fields that they are about and the instant of the last edit of that monitor, and submit nothing. -/
theorem change_shows_what_is_stored (hs : s.Reachable) {x : Change} {result : x.activity.Result}
    (h : s.CarriesOut es s' k x.activity (.done (.ok result))) (hstill : StandsStill es) :
    s'.commons.store.findByName x.org x.name = some (x.view result).monitor ∧
    (x.view result).status =
      (x.view result).monitor.status ((x.view result).latestRun.map Run.status) ∧
    (Service.get x.org x.name).run.Returns ∧
    (∀ {es' s'' k' again},
      s'.CarriesOut es' s'' k' (.get x.org x.name) (.done again) → StandsStill es' →
      ReportsSame es k es' k' →
        (x.isCreation = false ∨ (x.view result).latestRun = none → again = .ok (x.view result)) ∧
        (x.isCreation = true → ∀ r, (x.view result).latestRun = some r → ∃ reply,
          .call k' (.get x.org x.name) (.plane (.resource (.run x.org r.jobName))) reply ∈ es' ∧
          again = .ok ((x.view result).seenBy reply s.commons.clock))) ∧
    (x.isCreation = false →
      x.Writes s.commons.store s.commons.clock (x.view result).monitor s'.commons.store ∧
      ∀ i a spec answer, .call i a (.plane (.submit spec)) answer ∉ es) := by
  obtain ⟨moves, hmoves⟩ := h.history.exists_moves h.begun h.task
  have hcourse := Change.course hs.isProper.toIsConsistent (hmoves.playsAt hstill h.alone)
    (hmoves.drawsNew hs h.history)
  generalize x.view result = view at hcourse ⊢
  have hfound : s'.commons.store.findByName x.org x.name = some view.monitor := by
    cases hcourse with
    | created hfound => exact hfound
    | changed _ _ hof => exact hof.found
  have hstatus : view.status = view.monitor.status (view.latestRun.map Run.status) := by
    cases hcourse with
    | created _ hstatus => exact hstatus
    | changed _ _ hof => exact hof.status
  refine ⟨hfound, hstatus, (Service.readsOnly_get _ _).returns, ?_, fun hkind => ?_⟩
  · intro es' s'' k' again h' hstill' hsame
    obtain ⟨moves', hmoves'⟩ := h'.history.exists_moves h'.begun h'.task
    have hplays := hmoves'.playsAt hstill' h'.alone
    rw [h.history.clock_eq hstill] at hplays
    obtain ⟨-, view', rfl, -, hof'⟩ := Service.get_at hplays hfound
    cases hcourse with
    | created _ _ hlatest hpending =>
      have hopen : ∀ r, view.latestRun = some r → r.status.isTerminal = false :=
        fun r hr => by rw [hpending r hr]; rfl
      obtain ⟨hnone, hsome⟩ := hof'.again hfound hstatus hlatest hopen
      refine ⟨?_, fun _ r hr => ?_⟩
      · rintro (hkind | hlast)
        · cases hkind
        · rw [hnone hlast]
      · obtain ⟨reply, hasked, heq⟩ := hsome r hr
        exact ⟨reply, hmoves'.planeCall_mem hasked, by rw [heq]⟩
    | changed hkind _ hof =>
      refine ⟨fun _ => ?_, fun hcreates => ?_⟩
      · rw [hof.eq hof' (hsame.answersAgree hmoves hmoves')]
      · cases hkind.symm.trans hcreates
  · cases hcourse with
    | created => cases hkind
    | changed _ hwrites hof => exact ⟨hwrites, hmoves.not_submits h.alone hof.run.onlyAsks⟩

/-- A task goes on with the activity it has begun. -/
theorem History.exists_rest (h : s.History es s') {a : Activity}
    {rest : Program (Except MonitorError a.Result)} (htask : s.tasks[k]? = some ⟨a, rest⟩) :
    ∃ rest', s'.tasks[k]? = some ⟨a, rest'⟩ := by
  induction h with
  | nil => exact ⟨rest, htask⟩
  | snoc _ hstep ih =>
    obtain ⟨rest', htask'⟩ := ih
    exact hstep.exists_task htask'

/-- A schedule that can be kept to is replayed. -/
theorem some_after {env : Surroundings} {turns : List Turn}
    (h : (replay env turns s).isSome = true) : replay env turns s = some (s.after env turns) := by
  obtain ⟨out, hout⟩ := Option.isSome_iff_exists.1 h
  rw [after, hout, Option.getD_some]

/-- An activity that is scheduled alone, and has succeeded then, has been carried out. -/
theorem exists_carriesOut {env : Surroundings} {a : Activity} {calls : Nat}
    {out : List Event × Site} (hout : replay env (Turn.alone a k calls) s = some out)
    (hk : s.tasks.length = k) (hsucceeds : ∀ task ∈ out.2.tasks[k]?, task.HasSucceeded)
    (halone : ∀ e ∈ out.1, ∀ i ∈ e.caller, i = k) :
    ∃ result, s.CarriesOut out.1 out.2 k a (.done (.ok result)) := by
  obtain ⟨es, s'⟩ := out
  have hes : s.History es s' := replay_history hout
  simp only [Turn.alone, replay, turn?] at hout
  obtain ⟨⟨es', _⟩, hrest, heq⟩ := Option.map_eq_some_iff.1 hout
  cases heq
  have hbegun : (s.tasks ++ [Task.new a])[k]? = some (.new a) := by
    rw [← hk, List.getElem?_concat_length]
  obtain ⟨rest, htask⟩ := (replay_history hrest).exists_rest hbegun
  obtain ⟨result, rfl⟩ : ∃ result, rest = .done (.ok result) := hsucceeds _ htask
  exact ⟨result, hes, Nat.le_of_eq hk, htask, .inr ⟨_, rfl⟩, halone⟩

/-- A past monitor is created, and its job is accepted. -/
def acceptedRun : List Turn :=
  Turn.alone (.create "evaluation" "acme" (.tone "tone" (some ⟨⟨0, 0⟩, ⟨3600, 0⟩⟩))) 0 11

/-- Of an edit of the display name of a monitor whose job is reported to have failed. -/
theorem change_shows_what_is_stored_failed :
    let world := reporting (finished "WorkflowFailed" "out of memory")
    let edit : Edit := ⟨some "Tone of voice", none, none, none⟩
    let s := ((holding [] ⟨7200, 500⟩).after .accepting acceptedRun).2
    let first := s.after world (Turn.alone (.update "acme" "tone" edit) 1 7)
    let second := first.2.after world (Turn.alone (.get "acme" "tone") 2 4)
    s.Reachable ∧ ∃ view m,
      s.CarriesOut first.1 first.2 1 (.update "acme" "tone" edit) (.done (.ok view)) ∧
      StandsStill first.1 ∧ StandsStill second.1 ∧ ReportsSame first.1 1 second.1 2 ∧
      first.2.CarriesOut second.1 second.2 2 (.get "acme" "tone") (.done (.ok view)) ∧
      s.commons.store.findByName "acme" "tone" = some m ∧
      view.monitor = { m with displayName := "Tone of voice", updatedAt := ⟨7200, 500⟩ } ∧
      first.2.commons.store.findByName "acme" "tone" = some view.monitor := by
  intro world edit s first second
  have hs : s.Reachable := reachable_after (by decide +kernel)
  obtain ⟨view, h⟩ : ∃ view : MonitorView,
      s.CarriesOut first.1 first.2 1 (.update "acme" "tone" edit) (.done (.ok view)) :=
    exists_carriesOut (a := .update "acme" "tone" edit) (some_after (by decide +kernel))
      (by decide +kernel) (by decide +kernel) (by decide +kernel)
  obtain ⟨again, h'⟩ : ∃ again : MonitorView,
      first.2.CarriesOut second.1 second.2 2 (.get "acme" "tone") (.done (.ok again)) :=
    exists_carriesOut (a := .get "acme" "tone") (some_after (by decide +kernel))
      (by decide +kernel) (by decide +kernel) (by decide +kernel)
  have hticks : ∀ e ∈ first.1 ++ second.1, e.tick? = none := by decide +kernel
  have hstill : StandsStill (first.1 ++ second.1) := fun t ht => by cases hticks _ ht
  have hstill' : StandsStill second.1 := fun t ht => hstill t (List.mem_append_right _ ht)
  have hplane : ReportsSame first.1 1 second.1 2 := fun _ _ _ _ _ hreply hreply' =>
    (plane_of_after hreply').trans (plane_of_after hreply).symm
  obtain ⟨hfound, -, -, hagain, hwrites⟩ :=
    change_shows_what_is_stored hs (x := .update "acme" "tone" edit) h hstill.of_append
  obtain rfl : again = view := Except.ok.inj ((hagain h' hstill' hplane).1 (.inl rfl))
  cases (hwrites rfl).1 with
  | @update _ _ _ m hm hmonitor _ =>
    have hclock : s.commons.clock = ⟨7200, 500⟩ := by decide +kernel
    rw [hclock] at hmonitor
    exact ⟨hs, _, m, h, hstill.of_append, hstill', hplane, h', hm, hmonitor, hfound⟩

end Site

end TraceWatch
