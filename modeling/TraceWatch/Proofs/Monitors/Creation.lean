import TraceWatch.Proofs.Execution.Outcome
import TraceWatch.Proofs.Monitors.Presence
import TraceWatch.Proofs.Program.Layout
import TraceWatch.Proofs.System.Moves
import TraceWatch.Proofs.System.Replay

/-!
# Names are given once

A creation looks whether its name is free twice: before it asks the directory, and again when it
puts its monitor into the store. Only the second look counts, since it is one call with the write.
So of two creations under one name that succeed, the one that comes second finds the name free
again, and in between the monitor of the first has been deleted under its name
(`Scene.deleted_between`): the first has not taken it back, as it has succeeded.
-/

namespace TraceWatch

open Program

/-! ## How a creation goes -/

/-- The call reads, or it draws an identifier. -/
def Call.IsQuiet (c : Call) : Prop := c.isRead = true ∨ c = .freshId

/-- Each move reads, or it draws an identifier. -/
def AllQuiet (moves : List Move) : Prop := ∀ move ∈ moves, move.call.IsQuiet

namespace AllQuiet

variable {move : Move} {moves : List Move}

theorem nil : AllQuiet [] := List.forall_mem_nil _

theorem read (hmove : move.call.isRead = true) (h : AllQuiet moves) : AllQuiet (move :: moves) :=
  List.forall_mem_cons.2 ⟨.inl hmove, h⟩

theorem draw (hmove : move.call = .freshId) (h : AllQuiet moves) : AllQuiet (move :: moves) :=
  List.forall_mem_cons.2 ⟨.inr hmove, h⟩

/-- Drawing an identifier is idle, as reading is. -/
theorem allIdle (h : AllQuiet moves) (hsound : ∀ move ∈ moves, move.IsSound) : AllIdle moves := by
  intro move hmove
  rcases h move hmove with hread | hdraws
  · exact (hsound move hmove).idle_of_isRead hread
  · obtain ⟨c, answer, before, after⟩ := move
    obtain rfl : c = .freshId := hdraws
    exact hsound _ hmove

/-- No monitor is deleted. -/
theorem not_deletes (h : AllQuiet moves) (hmove : move ∈ moves) (id : Uuid) :
    move.call ≠ .store (.deleteMonitor id) := by
  intro hcall
  rcases h move hmove with hread | hdraws
  · rw [hcall] at hread
    cases hread
  · rw [hcall] at hdraws
    cases hdraws

/-- No run fails. -/
theorem not_failsRun (h : AllQuiet moves) (hmove : move ∈ moves) : ¬ move.FailsRun := by
  intro hfails
  rcases h move hmove with hread | hdraws
  · cases hfails <;> cases hread
  · cases hfails <;> cases hdraws

end AllQuiet

/-- Carrying out an assignment deletes no monitor. -/
theorem Assignment.makes_no_deletion (x : Assignment) :
    x.operation.run.Makes fun c => ∀ id, c ≠ .store (.deleteMonitor id) := by
  rw [operation_run]
  refine ⟨fun _ => nofun, fun id => ?_⟩
  dsimp only
  split
  · trivial
  · refine ⟨fun _ => nofun, fun answer => ?_⟩
    cases answer with
    | error e => trivial
    | ok job =>
      refine ⟨fun _ => nofun, fun now => ⟨fun _ => nofun, fun answer => ?_⟩⟩
      cases answer with
      | error e => exact ⟨fun _ => nofun, fun _ => trivial⟩
      | ok => exact ⟨fun _ => nofun, fun _ => trivial⟩

namespace Service

/-- What a creation does once its monitor is in the store: it carries out the run of a past monitor,
and takes the monitor back if that fails. -/
def launch (template org : String) (m : Monitor) : Program (Except MonitorError MonitorView) :=
  match m.traceStart, m.traceEnd with
  | some start, some stop =>
    (Assignment.operation ⟨template, org, m, ⟨start, stop⟩, m.evaluators⟩).run.bind fun
      | .ok r => .done (.ok ⟨m, m.status (some r.status), some r⟩)
      | .error e => .call (.store (.deleteMonitor m.id)) fun _ => .done (.error e)
  | _, _ => .done (.ok ⟨m, m.status none, none⟩)

variable {template org : String} {request : NewMonitor} {moves : List Move}

/-- If the run succeeds or there is none, the creation has succeeded; if not, it ends with taking
the monitor back, and up to there it has changed nothing. -/
theorem launch_plays {m : Monitor} {result : Except MonitorError MonitorView}
    (h : Plays (launch template org m) moves result) :
    (∃ shown, result = .ok shown ∧
        ∀ move ∈ moves, ¬ move.FailsRun ∧ ∀ id, move.call ≠ .store (.deleteMonitor id)) ∨
      ∃ e first answer before after, result = .error e ∧
        moves = first ++ [⟨.store (.deleteMonitor m.id), answer, before, after⟩] ∧
        AllIdle first := by
  unfold launch at h
  split at h
  · obtain ⟨first, second, ran, rfl, hrun, h⟩ := h.of_bind
    rcases Assignment.error_or_ok hrun with ⟨e, rfl, hidle⟩ | ⟨r, rfl, hsuccess⟩
    · obtain ⟨answer, before, after, rest, rfl, -, h⟩ := h.of_call
      obtain ⟨rfl, rfl⟩ := h.of_done
      exact .inr ⟨e, first, answer, before, after, rfl, rfl, hidle⟩
    · obtain ⟨rfl, rfl⟩ := h.of_done
      rw [List.append_nil]
      have hkeeps := (Assignment.makes_no_deletion _).of_plays hrun
      exact .inl ⟨_, rfl, fun move hmove => ⟨hsuccess move hmove, hkeeps move hmove⟩⟩
  · obtain ⟨rfl, rfl⟩ := h.of_done
    exact .inl ⟨_, rfl, List.forall_mem_nil _⟩

/-- A creation either fails without having changed anything, or it comes to the call that puts its
monitor into the store, under an identifier that it has drawn. -/
theorem create_plays {result : Except MonitorError MonitorView}
    (h : Plays (create template org request).run moves result) :
    (AllQuiet moves ∧ ∃ e, result = .error e) ∨
      ∃ m first answer before after rest,
        moves = first ++ ⟨.store (.createMonitor m), answer, before, after⟩ :: rest ∧
        AllQuiet first ∧ (∃ s s', ⟨.freshId, m.id, s, s'⟩ ∈ first) ∧
        m.org = org ∧ m.name = request.name ∧
        ((∃ e e', answer = .error e ∧ rest = [] ∧ result = .error e') ∨
          (answer = .ok () ∧ Plays (launch template org m) rest result)) := by
  rw [create_run] at h
  obtain ⟨now, s₁, s₁', rest, rfl, -, h⟩ := h.of_call
  dsimp only at h
  split at h
  · obtain ⟨rfl, rfl⟩ := h.of_done
    exact .inl ⟨.read rfl .nil, _, rfl⟩
  obtain ⟨found, s₂, s₂', rest, rfl, -, h⟩ := h.of_call
  rcases found with e | _ | taken
  · obtain ⟨rfl, rfl⟩ := h.of_done
    exact .inl ⟨.read rfl (.read rfl .nil), _, rfl⟩
  · obtain ⟨agentId, s₃, s₃', rest, rfl, -, h⟩ := h.of_call
    cases agentId with
    | error e =>
      obtain ⟨rfl, rfl⟩ := h.of_done
      exact .inl ⟨.read rfl (.read rfl (.read rfl .nil)), _, rfl⟩
    | ok agentId =>
      obtain ⟨environmentId, s₄, s₄', rest, rfl, -, h⟩ := h.of_call
      cases environmentId with
      | error e =>
        obtain ⟨rfl, rfl⟩ := h.of_done
        exact .inl ⟨.read rfl (.read rfl (.read rfl (.read rfl .nil))), _, rfl⟩
      | ok environmentId =>
        obtain ⟨id, s₅, s₅', rest, rfl, -, h⟩ := h.of_call
        obtain ⟨created, s₆, s₆', rest, rfl, -, h⟩ := h.of_call
        right
        refine ⟨_, [_, _, _, _, _], created, s₆, s₆', rest, rfl, ?_, ⟨s₅, s₅', ?_⟩, rfl, rfl, ?_⟩
        · exact .read rfl (.read rfl (.read rfl (.read rfl (.draw rfl .nil))))
        · exact .tail _ (.tail _ (.tail _ (.tail _ (.head _))))
        · cases created with
          | error e =>
            obtain ⟨rfl, rfl⟩ := h.of_done
            exact .inl ⟨e, _, rfl, rfl, rfl⟩
          | ok => exact .inr ⟨rfl, h⟩
  · obtain ⟨rfl, rfl⟩ := h.of_done
    exact .inl ⟨.read rfl (.read rfl .nil), _, rfl⟩

/-- A creation that succeeds has put a monitor of the name asked for into the store. It has met with
no failure of a run, and has deleted no monitor. -/
theorem create_plays_ok {shown : MonitorView}
    (h : Plays (create template org request).run moves (.ok shown)) :
    (∃ m before after, ⟨.store (.createMonitor m), .ok (), before, after⟩ ∈ moves ∧ m.org = org ∧
        m.name = request.name) ∧
      ∀ move ∈ moves, ¬ move.FailsRun ∧ ∀ id, move.call ≠ .store (.deleteMonitor id) := by
  rcases create_plays h with ⟨-, e, he⟩ | ⟨m, first, answer, before, after, rest, rfl, hfirst, -,
    horg, hname, ⟨_, e, -, -, he⟩ | ⟨rfl, hlaunch⟩⟩
  · cases he
  · cases he
  · refine ⟨⟨m, before, after, List.mem_append_right _ (.head _), horg, hname⟩, ?_⟩
    intro move hmove
    rcases List.mem_append.1 hmove with hmove | hmove
    · exact ⟨hfirst.not_failsRun hmove, hfirst.not_deletes hmove⟩
    · rcases List.mem_cons.1 hmove with rfl | hmove
      · exact ⟨nofun, fun _ => nofun⟩
      · rcases launch_plays hlaunch with ⟨_, -, hrest⟩ | ⟨e, _, _, _, _, he, -⟩
        · exact hrest move hmove
        · cases he

end Service

/-! ## Whose monitor it is -/

/-- A task has to do with the monitor that it is creating. -/
theorem Phase.mem_monitors_of_fosters {φ : Phase} {m : Monitor} (h : m ∈ φ.fosters) :
    m ∈ φ.monitors := by
  cases φ with
  | submitting k | accepted k | stamped k | refused k =>
    cases k with
    | initial => exact h
    | trigger | rerun => exact absurd h List.not_mem_nil
  | drafted | created => exact h
  | _ => exact absurd h List.not_mem_nil

namespace Scene

variable {s s' : Scene} {e : Event} {es : List Event}

/-- If somebody is creating a monitor under the identifier, it is the task. -/
structure FosteredBy (s : Scene) (k : Nat) (id : Uuid) : Prop where
  issued : id ∈ s.commons.issued
  only : ∀ i, ∀ m ∈ (s.phase i).fosters, m.id = id → i = k

theorem FosteredBy.step {k : Nat} {id : Uuid} (h : s.FosteredBy k id) (hstep : Step s e s') :
    s'.FosteredBy k id := by
  refine ⟨hstep.issued_mono h.issued, fun i m hm heq => ?_⟩
  rcases hstep.call_or_rests with ⟨j, a, c, answer, rfl⟩ | ⟨-, hrests⟩
  · cases hstep with
    | call hpassage hw =>
      rcases Phase.of_update (m ∈ ·.fosters) hm with ⟨rfl, hφ⟩ | ⟨-, hm⟩
      · rcases hpassage.fosters hw hφ with hold | hfresh
        · exact h.only i m hold heq
        · exact absurd (heq ▸ h.issued) hfresh
      · exact h.only i m hm heq
  · exact h.only i m (hrests.of_phase (P := (m ∈ ·.fosters)) List.not_mem_nil hm) heq

/-- A monitor that has just been put into the store is there, under a name that was free, and only
its creation is creating it. -/
theorem Step.creates (h : Step s e s') (hs : s.Reachable) {k : Nat} {m : Monitor}
    (he : e.Creates k m) :
    s.commons.store.findByName m.org m.name = none ∧ m ∈ s'.commons.store.monitors ∧
      s'.FosteredBy k m.id := by
  obtain ⟨template, org, request, rfl⟩ := he
  obtain ⟨home, hid⟩ := hs.identities
  have hstep := h
  cases h with
  | @call w w' g _ _ _ _ φ hpassage hw =>
    have hdrawn : (g k).drawn = some m.id := by
      rw [hpassage.createMonitor.1]
      rfl
    have hfostered : FosteredBy ⟨w, g⟩ k m.id :=
      ⟨(hid.drawn k m.id hdrawn).1, fun i m' hm' heq =>
        (hid.secret k i m.id hdrawn m' (Phase.mem_monitors_of_fosters hm') heq).symm⟩
    obtain ⟨hanswer, rfl⟩ := hw
    rcases StoreCall.createMonitor_cases w.clock w.store m with ⟨_, heq⟩ | ⟨hfree, heq⟩
    · rw [heq] at hanswer
      cases hanswer
    · refine ⟨hfree, ?_, hfostered.step hstep⟩
      dsimp only
      rw [heq]
      exact StoreCall.mem_putMonitor m

/-- A monitor that is gone when another is created under its name has been deleted under that name,
unless its own creation has taken it back. -/
theorem deleted_between {s₁ s₂ s₃ : Scene} {e' : Event} {i j : Nat} {m m' : Monitor}
    (hs : s.Reachable) (hfirst : Step s e s₁) (he : e.Creates i m) (hes : s₁.History es s₂)
    (hsecond : Step s₂ e' s₃) (he' : e'.Creates j m') (horg : m'.org = m.org)
    (hname : m'.name = m.name)
    (hkeeps : ∀ d ∈ es, d.caller = some i → ¬ d.Deletes m.id) :
    ∃ d ∈ es, d.DeletesNamed m.org m.name := by
  have hs₁ := hs.step hfirst
  obtain ⟨-, hm, hfostered⟩ := hfirst.creates hs he
  have hfixes : s₁.Fixes m.origin := hs₁.fixes m (.inl hm)
  by_contra hnone
  push Not at hnone
  -- then nobody deletes the monitor
  have hundeleted : ∀ d ∈ es, ¬ d.Deletes m.id := by
    intro d hd hdeletes
    obtain ⟨es₁, u, u', es₂, rfl, hbefore, hdelete, -⟩ := hes.of_mem hd
    rcases hdelete.deletes_cases hdeletes with
      ⟨k, m₀, hcaller, hm₀, heq, -⟩ | ⟨m₀, hm₀, heq, hnamed⟩
    · have hu : u.FosteredBy i m.id := hbefore.preserves FosteredBy.step hfostered
      rw [hu.only k m₀ hm₀ heq] at hcaller
      exact hkeeps d hd hcaller hdeletes
    · have horigin : m₀.origin = m.origin := (hfixes.history hbefore).known m₀ hm₀ heq
      obtain ⟨-, horg₀, hname₀⟩ := Monitor.identity_eq horigin
      rw [horg₀, hname₀] at hnamed
      exact hnone d hd hnamed
  -- so it is still there when its name is given again
  obtain ⟨m₂, hm₂, heq⟩ := hes.stays hundeleted ⟨m, hm, rfl⟩
  obtain ⟨-, horg₂, hname₂⟩ :=
    Monitor.identity_eq ((hfixes.history hes).known m₂ (.inl hm₂) heq)
  obtain ⟨hfree, -, -⟩ := hsecond.creates (hs₁.history hes) he'
  rw [horg, hname] at hfree
  exact Store.name_ne_of_findByName hfree hm₂ horg₂ hname₂

/-- Of two different events of a history one comes first. -/
theorem History.ordered {e' : Event} (h : s.History es s') (he : e ∈ es) (he' : e' ∈ es)
    (hne : e ≠ e') : ∃ es₁ s₁ s₂ mid s₃ s₄ es₂ first second,
      ((first = e ∧ second = e') ∨ (first = e' ∧ second = e)) ∧
      es = es₁ ++ first :: (mid ++ second :: es₂) ∧ s.History es₁ s₁ ∧ Step s₁ first s₂ ∧
      s₂.History mid s₃ ∧ Step s₃ second s₄ := by
  obtain ⟨es₁, s₁, s₂, es₂, rfl, hbefore, hstep, hafter⟩ := h.of_mem he
  rcases List.mem_append.1 he' with hmem | hmem
  · obtain ⟨es₃, s₃, s₄, es₄, rfl, hbefore', hstep', hmid⟩ := hbefore.of_mem hmem
    exact ⟨es₃, s₃, s₄, es₄, s₁, s₂, es₂, e', e, .inr ⟨rfl, rfl⟩, by simp, hbefore', hstep', hmid,
      hstep⟩
  · rcases List.mem_cons.1 hmem with rfl | hmem
    · exact absurd rfl hne
    · obtain ⟨es₃, s₃, s₄, es₄, rfl, hmid, hstep', -⟩ := hafter.of_mem hmem
      exact ⟨es₁, s₁, s₂, es₃, s₃, s₄, es₄, e, e', .inl ⟨rfl, rfl⟩, rfl, hbefore, hstep, hmid,
        hstep'⟩

end Scene

/-! ## The statement -/

/-- The activity creates a monitor of an organization with a name. -/
def Activity.CreatesNamed (org name : String) : Activity → Prop
  | create _ org' request => org' = org ∧ request.name = name
  | _ => False

instance (org name : String) : (a : Activity) → Decidable (a.CreatesNamed org name)
  | .create _ _ _ => inferInstanceAs (Decidable (_ ∧ _))
  | .cycle _ | .get _ _ | .list _ _ | .update _ _ _ | .delete _ _ | .stop _ _ | .start _ _
  | .runs _ _ _ | .rerun _ _ _ _ | .logs _ _ _ => .isFalse id

/-- The task has created a monitor of an organization with a name. -/
def Task.HasCreated (org name : String) (task : Task) : Prop :=
  task.activity.CreatesNamed org name ∧ task.HasSucceeded

instance (org name : String) (task : Task) : Decidable (task.HasCreated org name) :=
  inferInstanceAs (Decidable (_ ∧ _))

/-- One task puts its monitor into the store, then a deletion deletes the monitor of the
organization with the name, and then another task puts its monitor into the store. -/
def DeletedBetween (org name : String) (i j : Nat) (es : List Event) : Prop :=
  ∃ es₁ e mid e' es₂, es = es₁ ++ e :: (mid ++ e' :: es₂) ∧ (∃ m, e.Creates i m) ∧
    (∃ m, e'.Creates j m) ∧ ∃ d ∈ mid, d.DeletesNamed org name

namespace Site

/-- What is stored at a site, and what may be stored there later. -/
structure HasIntegrity (s : Site) : Prop where
  /-- No two monitors of an organization have the same name. -/
  names : (s.commons.store.monitors.map fun m => (m.org, m.name)).Nodup
  /-- Every run belongs to a stored monitor. -/
  owned : ∀ r ∈ s.commons.store.runs, s.commons.store.HasMonitor r.monitorId
  /-- Only a creation adds a monitor. -/
  addsMonitor : ∀ e s', s.Step e s' → ∀ m ∈ s'.commons.store.monitors,
    ¬ s.commons.store.HasMonitor m.id → ∃ k, e.Creates k m
  /-- Only an execution adds a run. -/
  addsRun : ∀ e s', s.Step e s' → ∀ r ∈ s'.commons.store.runs,
    ¬ s.commons.store.HasRun r.id → e.Records r
  /-- A monitor that is gone does not come back. -/
  monitorGone : ∀ id s₁ s₂ es₁ es₂, s.commons.store.HasMonitor id → s.History es₁ s₁ →
    ¬ s₁.commons.store.HasMonitor id → s₁.History es₂ s₂ → ¬ s₂.commons.store.HasMonitor id
  /-- A run that is gone does not come back. -/
  runGone : ∀ id s₁ s₂ es₁ es₂, s.commons.store.HasRun id → s.History es₁ s₁ →
    ¬ s₁.commons.store.HasRun id → s₁.History es₂ s₂ → ¬ s₂.commons.store.HasRun id
  /-- Of the tasks that create a monitor under a name only one succeeds, unless the monitor is
  deleted in between. -/
  createdOnce : ∀ org name s' es i j t t', s.History es s' →
    s.tasks.length ≤ i → s'.tasks[i]? = some t → t.HasCreated org name →
    s.tasks.length ≤ j → s'.tasks[j]? = some t' → t'.HasCreated org name →
      i = j ∨ DeletedBetween org name i j es ∨ DeletedBetween org name j i es

variable {s s' : Site} {es : List Event}

/-- A task that has created a monitor has put one of that name into the store, and has not deleted
any. -/
theorem History.creates (h : s.History es s') {k : Nat} {task : Task} {org name : String}
    (hk : s.tasks.length ≤ k) (htask : s'.tasks[k]? = some task)
    (hcreated : task.HasCreated org name) :
    (∃ e ∈ es, ∃ m, e.Creates k m ∧ m.org = org ∧ m.name = name) ∧
      ∀ d ∈ es, d.caller = some k → ∀ id, ¬ d.Deletes id := by
  obtain ⟨a, rest⟩ := task
  obtain ⟨ha, hok⟩ := hcreated
  cases a with
  | create template org' request =>
    obtain ⟨rfl, rfl⟩ : org' = org ∧ request.name = name := ha
    obtain ⟨shown, rfl⟩ : ∃ shown, rest = .done (.ok shown) := hok
    obtain ⟨moves, hmoves⟩ := h.exists_moves hk htask
    obtain ⟨⟨m, before, after, hcreate, horg, hname⟩, hkeeps⟩ :=
      Service.create_plays_ok hmoves.leads.plays
    have he := hmoves.event_mem_iff.2 ⟨rfl, before, after, hcreate⟩
    refine ⟨⟨_, he, m, ⟨_, _, _, rfl⟩, horg, hname⟩, fun d hd hcaller id hdeletes => ?_⟩
    obtain ⟨i, b, answer, rfl⟩ := hdeletes
    obtain rfl : i = k := Option.some.inj hcaller
    obtain ⟨rfl, before, after, hmove⟩ := hmoves.event_mem_iff.1 hd
    exact (hkeeps _ hmove).2 id rfl
  | _ => exact False.elim ha

/-- Of two tasks that have created a monitor under a name, the one that comes second has done so
after the monitor of the first was deleted. -/
theorem Reachable.created_once (hs : s.Reachable) (h : s.History es s') {i j : Nat} {t t' : Task}
    {org name : String} (hi : s.tasks.length ≤ i) (hti : s'.tasks[i]? = some t)
    (hcreated : t.HasCreated org name) (hj : s.tasks.length ≤ j) (htj : s'.tasks[j]? = some t')
    (hcreated' : t'.HasCreated org name) :
    i = j ∨ DeletedBetween org name i j es ∨ DeletedBetween org name j i es := by
  obtain ⟨⟨e, he, m, hcreate, horg, hname⟩, hkeeps⟩ := h.creates hi hti hcreated
  obtain ⟨⟨e', he', m', hcreate', horg', hname'⟩, hkeeps'⟩ := h.creates hj htj hcreated'
  by_cases hij : i = j
  · exact .inl hij
  have hne : e ≠ e' := by
    rintro rfl
    obtain ⟨_, _, _, rfl⟩ := hcreate
    obtain ⟨_, _, _, heq⟩ := hcreate'
    cases heq
    exact hij rfl
  obtain ⟨g, hg, hseen⟩ := hs.exists_scene
  obtain ⟨g', hg', -⟩ := hseen.history h
  obtain ⟨es₁, g₁, g₂, mid, g₃, g₄, es₂, first, second, horder, rfl, hbefore, hfirst, hmid,
    hsecond⟩ := hg'.ordered he he' hne
  have hg₁ := hg.history hbefore
  -- what a task has not done in the whole history it has not done in between
  have hwithin : ∀ d ∈ mid, d ∈ es₁ ++ first :: (mid ++ second :: es₂) := fun d hd =>
    List.mem_append_right _ (.tail _ (List.mem_append_left _ hd))
  right
  rcases horder with ⟨rfl, rfl⟩ | ⟨rfl, rfl⟩
  · left
    have hdeleted := Scene.deleted_between hg₁ hfirst hcreate hmid hsecond hcreate'
      (horg'.trans horg.symm) (hname'.trans hname.symm)
      fun d hd hcaller => hkeeps d (hwithin d hd) hcaller m.id
    rw [horg, hname] at hdeleted
    exact ⟨es₁, _, mid, _, es₂, rfl, ⟨m, hcreate⟩, ⟨m', hcreate'⟩, hdeleted⟩
  · right
    have hdeleted := Scene.deleted_between hg₁ hfirst hcreate' hmid hsecond hcreate
      (horg.trans horg'.symm) (hname.trans hname'.symm)
      fun d hd hcaller => hkeeps' d (hwithin d hd) hcaller m'.id
    rw [horg', hname'] at hdeleted
    exact ⟨es₁, _, mid, _, es₂, rfl, ⟨m', hcreate'⟩, ⟨m, hcreate⟩, hdeleted⟩

/-- Names are unique and every run has its monitor, at every reachable site. Monitors are added by
creations and runs by executions only, and what is gone does not come back. Of any number of
creations under one name at most one succeeds, unless its monitor is deleted before the next. -/
theorem store_integrity (hs : s.Reachable) : s.HasIntegrity := by
  obtain ⟨g, hg, hseen⟩ := hs.exists_scene
  have hstore : g.commons.store = s.commons.store := congrArg Commons.store hseen.commons
  refine ⟨hstore ▸ hg.isConsistent.nodup_names, hstore ▸ hg.isConsistent.owned,
    fun e s' hstep m hm hnew => ?_, fun e s' hstep r hr hnew => ?_,
    fun id s₁ s₂ es₁ es₂ hm h₁ hgone h₂ => ?_, fun id s₁ s₂ es₁ es₂ hr h₁ hgone h₂ => ?_,
    fun org name s' es i j t t' hes hi hti hcreated hj htj hcreated' =>
      hs.created_once hes hi hti hcreated hj htj hcreated'⟩
  · obtain ⟨g', hstep', hseen'⟩ := hseen.step hstep
    exact hstep'.adds_monitor (hseen'.commons ▸ hm) (hstore ▸ hnew)
  · obtain ⟨g', hstep', hseen'⟩ := hseen.step hstep
    exact hstep'.adds_run (hseen'.commons ▸ hr) (hstore ▸ hnew)
  · obtain ⟨g₁, hg₁, hseen₁⟩ := hseen.history h₁
    obtain ⟨g₂, hg₂, hseen₂⟩ := hseen₁.history h₂
    have hspent := (hg.spent_of_monitor (hstore ▸ hm)).history hg₁
    have habsent := hspent.not_hasMonitor hg₂ (hseen₁.commons ▸ hgone)
    rwa [hseen₂.commons] at habsent
  · obtain ⟨g₁, hg₁, hseen₁⟩ := hseen.history h₁
    obtain ⟨g₂, hg₂, hseen₂⟩ := hseen₁.history h₂
    have hspent := (hg.spent_of_run (hstore ▸ hr)).history hg₁
    have habsent := hspent.not_hasRun hg₂ (hseen₁.commons ▸ hgone)
    rwa [hseen₂.commons] at habsent

/-- A monitor is created, deleted, and created again under the same name. -/
def createdAgain : List Turn :=
  Turn.alone (.create "evaluation" "acme" (.tone "tone" none)) 0 6 ++
    Turn.alone (.delete "acme" "tone") 1 3 ++
    Turn.alone (.create "evaluation" "acme" (.tone "tone" none)) 2 6

/-- Of a site at which a name is given again after a deletion. -/
theorem store_integrity_createdAgain :
    let s₀ := holding [] ⟨7200, 0⟩
    let s := s₀.after .accepting createdAgain
    s₀.Reachable ∧ s₀.History s.1 s.2 ∧ s₀.HasIntegrity ∧ s.2.HasIntegrity ∧
      ∃ t t', s.2.tasks[0]? = some t ∧ t.HasCreated "acme" "tone" ∧
        s.2.tasks[2]? = some t' ∧ t'.HasCreated "acme" "tone" := by
  intro s₀ s
  have hs₀ : s₀.Reachable := IsNew.reachable ⟨rfl, rfl, rfl⟩
  have h : s₀.History s.1 s.2 := history_after (by decide +kernel)
  refine ⟨hs₀, h, store_integrity hs₀, store_integrity (hs₀.history h), ?_⟩
  exact ⟨_, _, List.getElem?_eq_getElem (by decide +kernel), by decide +kernel,
    List.getElem?_eq_getElem (by decide +kernel), by decide +kernel⟩

end Site

end TraceWatch
