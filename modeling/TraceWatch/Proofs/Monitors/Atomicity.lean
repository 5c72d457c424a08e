import TraceWatch.Proofs.Monitors.Creation
import TraceWatch.Proofs.Schedule.Switch

/-!
# Operations that fail

An operation that fails leaves the store as it was, provided that nobody else changes it meanwhile
(`Site.failed_operation_leaves_store`). Most operations do so even in company, since they write
last: what comes after the write cannot fail. Two have to be alone. An update looks for its monitor
again after its write, and finds it only if nobody has deleted it. A creation whose run fails has
put its monitor into the store and takes it back; with it nothing else goes, since the identifier
was new and so no run belonged to it.
-/

namespace TraceWatch

open Program

/-! ## Operations that write last -/

namespace Switch.InVain

variable {sw : Switch} {moves : List Move}

/-- An attempt in vain leaves the store as it was. -/
theorem allIdle (h : sw.InVain moves) (hsound : ∀ move ∈ moves, move.IsSound) : AllIdle moves := by
  intro move hmove
  rcases h move hmove with hread | ⟨id, hvain⟩
  · exact (hsound move hmove).idle_of_isRead hread
  · cases hvain with
    | off before after =>
      obtain ⟨now, hanswer⟩ := hsound _ hmove
      exact StoreCall.eq_of_vain hanswer
    | on next before after =>
      obtain ⟨now, hanswer⟩ := hsound _ hmove
      exact StoreCall.eq_of_vain hanswer

end Switch.InVain

namespace Service

variable {org name : String} {moves : List Move} {e : MonitorError}

/-- A deletion fails only before it has deleted anything. -/
theorem delete_allIdle (h : Plays (delete org name).run moves (.error e)) : AllIdle moves := by
  have hsound := h.isSound
  rw [delete_run] at h
  obtain ⟨found, s₁, s₁', rest, rfl, -, h⟩ := h.of_find
  cases found with
  | none =>
    obtain ⟨rfl, -⟩ := h.of_done
    exact allIdle_cons.2 ⟨(hsound _ (.head _)).idle_of_isRead rfl, allIdle_nil⟩
  | some m =>
    -- from here on everything succeeds
    obtain ⟨answer, s₂, s₂', rest, rfl, ⟨_, hlisted⟩, h⟩ := h.of_call
    obtain rfl : answer = .ok _ := congrArg Prod.fst hlisted
    obtain ⟨answer, s₃, s₃', rest, rfl, ⟨_, hdeleted⟩, h⟩ := h.of_call
    obtain rfl : answer = .ok () := congrArg Prod.fst hdeleted
    obtain ⟨_, _, _, -, -, h⟩ := h.of_bind
    cases h.of_done.2

/-- A repetition of a run fails only before the run is recorded. -/
theorem rerun_allIdle {template : String} {id : Uuid}
    (h : Plays (rerun template org name id).run moves (.error e)) : AllIdle moves := by
  have hsound := h.isSound
  rw [rerun_run] at h
  obtain ⟨found, s₁, s₁', rest, rfl, -, h⟩ := h.of_find
  have hfind := (hsound _ (.head _)).idle_of_isRead rfl
  cases found with
  | none =>
    obtain ⟨rfl, -⟩ := h.of_done
    exact allIdle_cons.2 ⟨hfind, allIdle_nil⟩
  | some m =>
    obtain ⟨answer, s₂, s₂', rest, rfl, -, h⟩ := h.of_call
    have hrun := (hsound _ (.tail _ (.head _))).idle_of_isRead rfl
    refine allIdle_cons.2 ⟨hfind, allIdle_cons.2 ⟨hrun, ?_⟩⟩
    rcases answer with _ | _ | r
    · rw [h.of_done.1]
      exact allIdle_nil
    · rw [h.of_done.1]
      exact allIdle_nil
    · dsimp only at h
      split at h
      · rcases Assignment.error_or_ok h with ⟨-, -, hidle⟩ | ⟨r, hok, -⟩
        · exact hidle
        · cases hok
      · rw [h.of_done.1]
        exact allIdle_nil

end Service

/-- The activity is an operation of the manager. -/
def Activity.IsOperation : Activity → Prop
  | cycle _ => False
  | _ => True

instance : (a : Activity) → Decidable a.IsOperation
  | .cycle _ => .isFalse id
  | .create _ _ _ | .get _ _ | .list _ _ | .update _ _ _ | .delete _ _ | .stop _ _ | .start _ _
  | .runs _ _ _ | .rerun _ _ _ _ | .logs _ _ _ => .isTrue trivial

/-- The activity is an operation of the manager that does not look at the store after a write. -/
def Activity.WritesLast : Activity → Prop
  | cycle _ | create _ _ _ | update _ _ _ => False
  | _ => True

/-- An operation that writes last and fails has not changed anything, whatever happens meanwhile. -/
theorem Activity.WritesLast.allIdle {a : Activity} (ha : a.WritesLast) {moves : List Move}
    {e : MonitorError} (h : Plays a.operation.run moves (.error e)) : AllIdle moves := by
  cases a with
  | cycle | create | update => exact False.elim ha
  | get org name => exact (Service.readsOnly_get org name).allIdle h
  | list org filter => exact (Service.readsOnly_list org filter).allIdle h
  | runs org name limit => exact (Service.readsOnly_runs org name limit).allIdle h
  | logs org name id => exact (Service.readsOnly_logs org name id).allIdle h
  | delete org name => exact Service.delete_allIdle h
  | rerun template org name id => exact Service.rerun_allIdle h
  | stop org name =>
    cases Switch.off.plays h with
    | missed _ hvain => exact hvain.allIdle h.isSound
    | past _ _ _ hvain => exact hvain.allIdle h.isSound
    | late _ _ hvain => exact hvain.allIdle h.isSound
  | start org name =>
    cases Switch.on.plays h with
    | missed _ hvain => exact hvain.allIdle h.isSound
    | past _ _ _ hvain => exact hvain.allIdle h.isSound
    | late _ _ hvain => exact hvain.allIdle h.isSound

/-! ## Updates -/

namespace Service

variable {org name : String} {s s' : Store} {moves : List Move}

/-- A monitor that bears the name is there to be shown. -/
theorem get_plays_ok {result : Except MonitorError MonitorView}
    (h : Plays (get org name).run moves result) (hrow : Chained s moves s') {m : Monitor}
    (hm : m ∈ s.monitors) (horg : m.org = org) (hname : m.name = name) :
    ∃ shown, result = .ok shown := by
  rw [get, loadMonitor_bind] at h
  obtain ⟨now, rest, -, h, hrow⟩ := h.of_store_row hrow
  simp only [StoreCall.perform] at h
  cases hfind : s.findByName org name with
  | none => exact absurd hname (Store.name_ne_of_findByName hfind hm horg)
  | some found =>
    rw [hfind] at h
    exact view_plays h

/-- An update that nobody disturbs fails if there is no monitor of the name, or if a field does not
pass its check, and then nothing is written. Otherwise it succeeds. -/
theorem update_plays {edit : Edit} {result : Except MonitorError MonitorView}
    (h : Plays (update org name edit).run moves result) (hrow : Chained s moves s') :
    (s.findByName org name = none ∧ result = .error (.monitorNotFound org name) ∧ s' = s) ∨
      ∃ m, s.findByName org name = some m ∧
        ((∃ violation, edit.check m = .error violation ∧
            result = .error (.validation violation) ∧ s' = s) ∨
          (edit.check m = .ok () ∧ ∃ shown, result = .ok shown)) := by
  rw [update_run] at h
  obtain ⟨now, rest, -, h, hrow⟩ := h.of_store_row hrow
  simp only [StoreCall.perform] at h hrow
  cases hfind : s.findByName org name with
  | none =>
    rw [hfind] at h
    obtain ⟨rfl, rfl⟩ := h.of_done
    exact .inl ⟨rfl, rfl, hrow⟩
  | some m =>
    rw [hfind] at h
    refine .inr ⟨m, rfl, ?_⟩
    dsimp only at h
    cases hcheck : edit.check m with
    | error violation =>
      rw [hcheck] at h
      obtain ⟨rfl, rfl⟩ := h.of_done
      exact .inl ⟨violation, rfl, rfl, hrow⟩
    | ok =>
      rw [hcheck] at h
      obtain ⟨now, rest, -, h, hrow⟩ := h.of_idle_row hrow (by simp)
      obtain ⟨clock, rest, -, h, hrow⟩ := h.of_store_row hrow
      have hm : m ∈ s.monitors := List.mem_of_find?_eq_some hfind
      obtain ⟨horg, hname⟩ := Store.named_of_findByName hfind
      have hid : ({ edit.apply m with updatedAt := now } : Monitor).id = m.id := rfl
      rw [StoreCall.updateDefinition_answer hm hid] at h
      obtain ⟨m', hm', horg', hname'⟩ := StoreCall.exists_named_of_update _ hm
      exact .inr ⟨rfl, get_plays_ok h hrow hm' (horg'.trans horg) (hname'.trans hname)⟩

end Service

/-! ## Creations -/

/-- What is put into the store under a new identifier is all that goes when it is deleted. -/
theorem Store.deleteMonitor_putMonitor {s : Store} {m : Monitor} (hnew : ¬ s.HasMonitor m.id)
    (howned : ∀ r ∈ s.runs, s.HasMonitor r.monitorId) :
    (s.putMonitor m).deleteMonitor m.id = s := by
  have hnone : s.findMonitor m.id = none :=
    List.find?_eq_none.2 fun m' hm' hid => hnew ⟨m', hm', by simpa using hid⟩
  have hmonitors : (s.monitors ++ [m]).filter (·.id ≠ m.id) = s.monitors := by
    rw [List.filter_append, List.filter_eq_self.2, List.filter_eq_nil_iff.2, List.append_nil]
    · simp
    · exact fun m' hm' => decide_eq_true fun hid => hnew ⟨m', hm', hid⟩
  have hruns : s.runs.filter (·.monitorId ≠ m.id) = s.runs :=
    List.filter_eq_self.2 fun r hr => decide_eq_true fun hid => hnew (hid ▸ howned r hr)
  simp only [putMonitor, hnone, Option.isSome_none, Bool.false_eq_true, if_false, deleteMonitor,
    hmonitors, hruns]

/-- A creation that nobody disturbs and that fails leaves the store as it was. -/
theorem Service.create_restores {template org : String} {request : NewMonitor} {s s' : Store}
    {moves : List Move} {e : MonitorError} (howned : ∀ r ∈ s.runs, s.HasMonitor r.monitorId)
    (hnew : ∀ move ∈ moves, ∀ m, move.call = .store (.createMonitor m) → ¬ s.HasMonitor m.id)
    (h : Plays (create template org request).run moves (.error e)) (hrow : Chained s moves s') :
    s' = s := by
  have hsound := h.isSound
  rcases create_plays h with ⟨hquiet, -⟩ |
    ⟨m, first, answer, before, after, rest, rfl, hquiet, -, -, -, hend⟩
  · exact hrow.eq_of_allIdle (hquiet.allIdle hsound)
  · -- up to the write nothing has happened
    obtain ⟨s₁, hfirst, rfl, hrest⟩ := hrow.of_append
    obtain rfl : before = s := hfirst.eq_of_allIdle
      (hquiet.allIdle fun move hmove => hsound move (List.mem_append_left _ hmove))
    obtain ⟨now, hwrite⟩ := hsound _ (List.mem_append_right _ (.head _))
    rcases StoreCall.createMonitor_cases now before m with ⟨_, heq⟩ | ⟨-, heq⟩
    · -- the name has been taken, so the creation ends here
      rw [heq] at hwrite
      obtain ⟨rfl, rfl⟩ := Prod.mk.inj hwrite
      rcases hend with ⟨_, _, -, rfl, -⟩ | ⟨hok, -⟩
      · exact hrest
      · cases hok
    · rw [heq] at hwrite
      obtain ⟨rfl, rfl⟩ := Prod.mk.inj hwrite
      rcases hend with ⟨_, _, herror, -, -⟩ | ⟨-, hlaunch⟩
      · cases herror
      · rcases launch_plays hlaunch with ⟨_, hok, -⟩ | ⟨_, run, _, s₂, s₃, -, rfl, hidle⟩
        · cases hok
        · obtain ⟨s₄, hrun, rfl, hlast⟩ := hrest.of_append
          obtain rfl : s₂ = before.putMonitor m := hrun.eq_of_allIdle hidle
          obtain ⟨_, hdelete⟩ := hsound _ (List.mem_append_right _
            (.tail _ (List.mem_append_right _ (.head _))))
          rw [show s' = s₃ from hlast, show s₃ = _ from congrArg Prod.snd hdelete]
          exact Store.deleteMonitor_putMonitor
            (hnew _ (List.mem_append_right _ (.head _)) m rfl) howned

/-! ## The statement -/

/-- The activity is carried out from one store to another, and nobody else changes the store
meanwhile. A monitor that it creates gets an identifier that no stored one has. -/
structure Activity.Undisturbed (a : Activity) (s : Store) (moves : List Move) (s' : Store)
    (result : Except MonitorError a.Result) : Prop where
  plays : Plays a.operation.run moves result
  row : Chained s moves s'
  unused : ∀ move ∈ moves, ∀ m, move.call = .store (.createMonitor m) → ¬ s.HasMonitor m.id

/-- A field that the edit sets cannot be that of the monitor. -/
inductive Edit.HasBadField (edit : Edit) (m : Monitor) : Prop
  | displayName (displayName : String) : edit.displayName = some displayName →
    Text.isBlank displayName = true → HasBadField edit m
  | evaluators (evaluators : List Evaluator) : edit.evaluators = some evaluators →
    Rules.checkEvaluators evaluators ≠ .ok () → HasBadField edit m
  | samplingRate (rate : Binary64) : edit.samplingRate = some rate →
    Rules.checkSamplingRate rate ≠ .ok () → HasBadField edit m
  | interval (minutes : Int) : edit.interval = some minutes →
    ¬ (m.kind = .future ∧ 5 ≤ minutes) → HasBadField edit m

/-- Such an edit is not accepted. -/
theorem Edit.HasBadField.check_ne {edit : Edit} {m : Monitor} (h : edit.HasBadField m) :
    edit.check m ≠ .ok () := by
  intro hcheck
  obtain ⟨hdisplay, hevaluators, hrate, hinterval⟩ := check_eq_ok.1 hcheck
  cases h with
  | displayName displayName hset hblank =>
    rw [hset] at hdisplay
    cases hblank.symm.trans (Rules.checkDisplayName_eq_ok.1 hdisplay)
  | evaluators evaluators hset hbad =>
    rw [hset] at hevaluators
    exact hbad hevaluators
  | samplingRate rate hset hbad =>
    rw [hset] at hrate
    exact hbad hrate
  | interval minutes hset hbad =>
    rw [hset] at hinterval
    exact hbad (checkInterval_eq_ok.1 hinterval)

namespace Site

variable {s s' : Site} {es : List Event}

/-- A task that is carried out while nobody else makes a call is undisturbed. -/
theorem Reachable.undisturbed (hs : s.Reachable) (h : s.History es s') {k : Nat}
    (hk : s.tasks.length ≤ k) (halone : ∀ e ∈ es, ∀ i, e.caller = some i → i = k) {task : Task}
    (htask : s'.tasks[k]? = some task) {result : Except MonitorError task.activity.Result}
    (hdone : task.rest = .done result) :
    ∃ moves, task.activity.Undisturbed s.commons.store moves s'.commons.store result := by
  obtain ⟨a, rest⟩ := task
  obtain ⟨moves, hmoves⟩ := h.exists_moves hk htask
  cases rest with
  | halt => cases hdone
  | call => cases hdone
  | done v =>
    obtain rfl : v = result := Program.done.inj hdone
    refine ⟨moves, hmoves.leads.plays, hmoves.chained halone, fun move hmove m hcall hused => ?_⟩
    -- whoever creates a monitor has drawn its identifier, and nobody has drawn a used one
    obtain ⟨g, hg, hseen⟩ := hs.exists_scene
    obtain ⟨g', hg', -⟩ := hseen.history h
    obtain ⟨c, answer, before, after⟩ := move
    obtain rfl : c = .store (.createMonitor m) := hcall
    obtain ⟨_, u, u', _, -, hbefore, hstep, -⟩ := hg'.of_mem (hmoves.event_mem hmove)
    have hspent : u.Spent m.id :=
      (hg.spent_of_monitor (hseen.commons ▸ hused)).history hbefore
    cases hstep with
    | call hpassage _ =>
      refine hspent.undrawn k ?_
      dsimp only
      rw [hpassage.createMonitor.1]
      rfl

/-- At every reachable site an operation that fails leaves the store as it was, if nobody changes
the store meanwhile. In particular, an update with a field that does not pass its check writes no
field, and a creation whose run fails leaves neither a monitor nor a run; both of them do fail. -/
theorem failed_operation_leaves_store (hs : s.Reachable) {a : Activity} (ha : a.IsOperation)
    {moves : List Move} {σ : Store} {result : Except MonitorError a.Result}
    (h : a.Undisturbed s.commons.store moves σ result) :
    (∀ e, result = .error e → σ = s.commons.store) ∧
      (∀ org name edit m, a = .update org name edit →
        s.commons.store.findByName org name = some m → edit.HasBadField m →
          (∃ violation, result = .error (.validation violation)) ∧ σ = s.commons.store) ∧
      ∀ template org request, a = .create template org request →
        (∃ move ∈ moves, move.FailsRun) →
          (∃ e, result = .error e) ∧ σ = s.commons.store := by
  obtain ⟨g, hg, hseen⟩ := hs.exists_scene
  have hconsistent : s.commons.store.IsConsistent := hseen.commons ▸ hg.isConsistent
  have hrestores : ∀ e, result = .error e → σ = s.commons.store := by
    rintro e rfl
    cases a with
    | cycle => exact False.elim ha
    | create => exact Service.create_restores hconsistent.owned h.unused h.plays h.row
    | update =>
      rcases Service.update_plays h.plays h.row with
        ⟨-, -, hsame⟩ | ⟨m, -, ⟨_, -, -, hsame⟩ | ⟨-, _, hok⟩⟩
      · exact hsame
      · exact hsame
      · cases hok
    | _ =>
      refine h.row.eq_of_allIdle (Activity.WritesLast.allIdle ?_ h.plays)
      trivial
  refine ⟨hrestores, ?_, ?_⟩
  · rintro org name edit m rfl hfind hbad
    rcases Service.update_plays h.plays h.row with
      ⟨hnone, -, -⟩ | ⟨m', hfind', ⟨violation, -, hresult, hsame⟩ | ⟨hcheck, -⟩⟩
    · cases hfind.symm.trans hnone
    · exact ⟨⟨violation, hresult⟩, hsame⟩
    · cases hfind.symm.trans hfind'
      exact absurd hcheck hbad.check_ne
  · rintro template org request rfl ⟨move, hmove, hfails⟩
    cases result with
    | error e => exact ⟨⟨e, rfl⟩, hrestores e rfl⟩
    | ok shown => exact absurd hfails ((Service.create_plays_ok h.plays).2 move hmove).1

/-- A past monitor is created beside another, and its job is rejected. -/
def rejectedRun : List Turn :=
  Turn.alone (.create "evaluation" "acme" (.tone "care" (some ⟨⟨0, 0⟩, ⟨3600, 0⟩⟩))) 1 9

/-- Of a creation whose run fails after its monitor has been put into the store. -/
theorem failed_operation_leaves_store_rejectedRun :
    let s₀ := ((holding [] ⟨7200, 0⟩).after .accepting
      (Turn.alone (.create "evaluation" "acme" (.tone "tone" none)) 0 6)).2
    let s := s₀.after .rejecting rejectedRun
    s₀.Reachable ∧ s₀.commons.store.monitors.length = 1 ∧
      ∃ t moves, s.2.tasks[1]? = some t ∧ t.activity.IsOperation ∧
        t.activity.CreatesNamed "acme" "care" ∧
        t.activity.Undisturbed s₀.commons.store moves s.2.commons.store
          (.error (.plane Surroundings.rejection)) ∧
        s.2.commons.store = s₀.commons.store := by
  intro s₀ s
  have hs₀ : s₀.Reachable := reachable_after (by decide +kernel)
  have hes : s₀.History s.1 s.2 := history_after (by decide +kernel)
  have hcreation : ∃ t, s.2.tasks[1]? = some t ∧ t.activity.IsOperation ∧
      t.activity.CreatesNamed "acme" "care" ∧ t.HasFailed (.plane Surroundings.rejection) :=
    ⟨_, List.getElem?_eq_getElem (by decide +kernel), by decide +kernel, by decide +kernel,
      by decide +kernel⟩
  have hcallers : ∀ e ∈ s.1, e.caller = none ∨ e.caller = some 1 := by decide +kernel
  have halone : ∀ e ∈ s.1, ∀ i, e.caller = some i → i = 1 := by
    intro e he i hi
    rcases hcallers e he with hnone | hone
    · cases hnone.symm.trans hi
    · exact (Option.some.inj (hone.symm.trans hi)).symm
  have hbegun : s₀.tasks.length ≤ 1 := by decide +kernel
  obtain ⟨t, htask, hoperation, hcreates, hfailed⟩ := hcreation
  obtain ⟨moves, hundisturbed⟩ := hs₀.undisturbed hes hbegun halone htask hfailed
  have hone : s₀.commons.store.monitors.length = 1 := by decide +kernel
  exact ⟨hs₀, hone, t, moves, htask, hoperation, hcreates, hundisturbed,
    (failed_operation_leaves_store hs₀ hoperation hundisturbed).1 _ rfl⟩

end Site

end TraceWatch
