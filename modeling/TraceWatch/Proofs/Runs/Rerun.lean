import Mathlib.Logic.Relation
import TraceWatch.Proofs.Program.Layout
import TraceWatch.Proofs.Runs.Submission
import TraceWatch.Proofs.System.Replay

/-!
# Carrying out runs again

A rerun finds a stored run and carries it out over the window and with the evaluators that it finds
there, not those of the monitor. A stored run is what was recorded, and what was recorded is what
was submitted, so a rerun submits the same subject as the run it repeats, however often the monitor
has been edited since and however many reruns lie in between. All it changes is that it adds a run.
The statement is `Site.runs_repeat`.
-/

namespace TraceWatch

open Program

/-! ## How a rerun goes -/

/-- The call leaves the store as it is, whatever it is answered. -/
def Call.SparesStore (c : Call) : Prop := ∀ d, c = .store d → d.isRead = true

/-- A call that spares the store leaves it as it was. -/
theorem Commons.Answers.store_eq_of_spares {w w' : Commons} {k : Nat} {c : Call}
    {answer : c.Answer} (h : w.Answers k c answer w') (hc : c.SparesStore) :
    w'.store = w.store := by
  rcases h.store_cases with ⟨d, rfl, hstore⟩ | hsame
  · rw [hstore]
    exact StoreCall.perform_of_isRead (hc d rfl) _ _
  · exact hsame

/-- Among the moves the run is recorded, and no other move writes to the store. -/
structure RecordsOnly (r : Run) (first : List Move) (before after : Store) (last : List Move)
    (moves : List Move) : Prop where
  eq : moves = first ++ ⟨.store (.createRun r), .ok (), before, after⟩ :: last
  first : ∀ move ∈ first, move.call.SparesStore
  last : ∀ move ∈ last, move.call.SparesStore

/-- An execution that succeeds has submitted its job, and recorded its run. -/
theorem Assignment.plays_ok {x : Assignment} {moves : List Move} {r : Run}
    (h : Plays x.operation.run moves (.ok r)) :
    ∃ id job now first before after last, r = x.record id now ∧
      planeMoves moves = [⟨.submit (x.spec id), .ok job⟩] ∧
      RecordsOnly r first before after last moves := by
  rw [operation_run] at h
  obtain ⟨id, s₁, s₁', rest, rfl, -, h⟩ := h.of_call
  split at h
  · cases h.of_done.2
  · obtain ⟨answer, s₂, s₂', rest, rfl, -, h⟩ := h.of_call
    cases answer with
    | error => cases h.of_done.2
    | ok job =>
      obtain ⟨now, s₃, s₃', rest, rfl, -, h⟩ := h.of_call
      obtain ⟨answer, s₄, s₄', rest, rfl, -, h⟩ := h.of_call
      cases answer with
      | error =>
        obtain ⟨_, _, _, rest, rfl, -, h⟩ := h.of_call
        cases h.of_done.2
      | ok =>
        obtain ⟨counted, s₅, s₅', rest, rfl, -, h⟩ := h.of_call
        obtain ⟨rfl, hr⟩ := h.of_done
        obtain rfl := Except.ok.inj hr
        refine ⟨id, job, now, [_, _, _], s₄, s₄', [_], rfl, rfl, rfl, ?_, ?_⟩
        · simp [Call.SparesStore]
        · simp [Call.SparesStore]

/-- A rerun that succeeds has found the run and has carried it out over its window and with its
evaluators. -/
theorem Service.rerun_plays_ok {template org name : String} {id : Uuid} {moves : List Move}
    {r' : Run} (h : Plays (rerun template org name id).run moves (.ok r')) :
    ∃ (m : Monitor) (r : Run) (id' : Uuid) (job : JobRef) (now : Timestamp) (first : List Move)
      (before after : Store) (last : List Move),
      r.monitorId = m.id ∧
      (∃ s s', ⟨.store (.findRun id), .ok (some r), s, s'⟩ ∈ first) ∧
      r' = (Assignment.mk template org m r.window r.evaluators).record id' now ∧
      planeMoves moves =
        [⟨.submit ((Assignment.mk template org m r.window r.evaluators).spec id'), .ok job⟩] ∧
      RecordsOnly r' first before after last moves := by
  rw [rerun_run] at h
  obtain ⟨answer, s₁, s₁', rest, rfl, -, h⟩ := h.of_call
  rcases answer with e | _ | m
  · cases h.of_done.2
  · cases h.of_done.2
  · obtain ⟨answer, s₂, s₂', rest, rfl, -, h⟩ := h.of_call
    rcases answer with e | _ | r
    · cases h.of_done.2
    · cases h.of_done.2
    · dsimp only at h
      split at h
      · next howner =>
        obtain ⟨id', job, now, first, before, after, last, hr', hplane, rfl, hfirst, hlast⟩ :=
          Assignment.plays_ok h
        refine ⟨m, r, id', job, now, _ :: _ :: first, before, after, last, howner,
          ⟨s₂, s₂', .tail _ (.head _)⟩, hr', hplane, rfl, ?_, hlast⟩
        refine List.forall_mem_cons.2 ⟨?_, List.forall_mem_cons.2 ⟨?_, hfirst⟩⟩
        · rintro _ ⟨⟩
          rfl
        · rintro _ ⟨⟩
          rfl
      · cases h.of_done.2

/-! ## The statement -/

/-- What a job evaluates, as the texts that are submitted. -/
structure Subject where
  traceStart : String
  traceEnd : String
  evaluators : String

/-- What the job evaluates. -/
def JobSpec.subject (spec : JobSpec) : Subject :=
  ⟨spec.parameters.traceStart, spec.parameters.traceEnd, spec.parameters.evaluators⟩

/-- What a job of the run evaluates. -/
def Run.subject (r : Run) : Subject :=
  ⟨r.window.start.renderSeconds, r.window.stop.renderSeconds,
    (Evaluator.listToJson r.evaluators).render⟩

theorem JobSpec.Carries.subject_eq {spec : JobSpec} {r : Run} (h : spec.Carries r) :
    spec.subject = r.subject := by
  rw [JobSpec.subject, Run.subject, h.traceStart, h.traceEnd, h.evaluators]

/-- The call of the workflow plane that the task makes with the event, and its answer. -/
def Event.planeCall? (k : Nat) : Event → Option Move.OfPlane
  | call i _ (.plane c) answer => if i = k then some ⟨c, answer⟩ else none
  | _ => none

/-- The identifier of the run that the task carries out again, and the run with which it has
succeeded. -/
def Task.rerun? : Task → Option (Uuid × Run)
  | ⟨.rerun _ _ _ id, .done (.ok r')⟩ => some (id, r')
  | _ => none

/-- The task is a rerun of the run with the identifier, and has succeeded with the other run. -/
def Task.HasRerun (id : Uuid) (r' : Run) (task : Task) : Prop := task.rerun? = some (id, r')

theorem Task.HasRerun.eq {id : Uuid} {r' : Run} {task : Task} (h : task.HasRerun id r') :
    ∃ template org name, task = ⟨.rerun template org name id, .done (.ok r')⟩ := by
  unfold HasRerun rerun? at h
  split at h
  · cases h
    exact ⟨_, _, _, rfl⟩
  · cases h

namespace Site

/-- Some task is a rerun of the run, and has succeeded with the other. -/
def HasRerun (s : Site) (r r' : Run) : Prop :=
  ∃ (k : Nat) (task : Task), s.tasks[k]? = some task ∧ task.HasRerun r.id r'

/-- The calls that the task makes in the history leave the store as it is. -/
def KeepsStore (s₀ : Site) (es : List Event) (s : Site) (k : Nat) : Prop :=
  ∀ es₁ e es₂ s₁ s₂, es = es₁ ++ e :: es₂ → s₀.History es₁ s₁ → Step s₁ e s₂ → s₂.History es₂ s →
    e.caller = some k → s₂.commons.store = s₁.commons.store

/-- In the history the task adds the run to the store, under an identifier that is not in use, and
does nothing else to the store. -/
def AddsRun (s₀ : Site) (es : List Event) (s : Site) (k : Nat) (r : Run) : Prop :=
  ∃ es₁ s₁ e s₂ es₂, es = es₁ ++ e :: es₂ ∧ s₀.History es₁ s₁ ∧ Step s₁ e s₂ ∧ s₂.History es₂ s ∧
    e.caller = some k ∧ ¬ s₁.commons.store.HasRun r.id ∧
    s₂.commons.store = ⟨s₁.commons.store.monitors, s₁.commons.store.runs ++ [r]⟩ ∧
    s₀.KeepsStore es₁ s₁ k ∧ s₂.KeepsStore es₂ s k

/-- The task has carried out the run again, as the other. -/
structure Repeats (s₀ : Site) (es : List Event) (s : Site) (k : Nat) (r r' : Run) : Prop where
  /-- It has made one call of the workflow plane, a submission that has been accepted, of the
  subject that was submitted for the run. -/
  submission : ∃ spec' job, es.filterMap (Event.planeCall? k) = [⟨.submit spec', .ok job⟩] ∧
    spec'.Carries r' ∧ ∀ spec, HasSubmitted r.id spec es → spec'.subject = spec.subject
  other : r'.id ≠ r.id
  monitorId : r'.monitorId = r.monitorId
  window : r'.window = r.window
  evaluators : r'.evaluators = r.evaluators
  status : r'.status = .pending
  /-- It has added the other run to the store and has changed nothing else there. -/
  adds : s₀.AddsRun es s k r'

/-- How runs are recorded, kept and carried out again. -/
structure RepeatsRuns (s₀ : Site) (es : List Event) (s : Site) : Prop where
  /-- Whatever run is stored has been recorded. -/
  recorded : ∀ r' ∈ s.commons.store.runs, ∃ r, HasRecorded r es ∧ r'.origin = r.origin
  /-- While a run is stored, it has what it was recorded with. -/
  kept : ∀ r, HasRecorded r es → ∀ r' ∈ s.commons.store.runs, r'.id = r.id → r'.origin = r.origin
  /-- For each recorded run one job has been submitted, which carries it. -/
  submitted : ∀ r, HasRecorded r es → ∃ spec, spec.Carries r ∧ SubmittedAs r.id spec es
  /-- Whoever has succeeded in carrying out a run again has repeated it, and recorded that. -/
  repeats : ∀ r r' k task, HasRecorded r es → s.tasks[k]? = some task → task.HasRerun r.id r' →
    s₀.Repeats es s k r r' ∧ HasRecorded r' es
  /-- The reruns of a run, their reruns and so on have all been submitted with its subject. -/
  chain : ∀ r r', HasRecorded r es → Relation.ReflTransGen s.HasRerun r r' →
    HasRecorded r' es ∧ ∀ spec spec', HasSubmitted r.id spec es → HasSubmitted r'.id spec' es →
      spec'.subject = spec.subject

variable {s₀ s : Site} {es : List Event} {k : Nat}

/-- The plane calls of a task are those among its moves. -/
theorem AreMoves.planeCalls {a : Activity} {moves : List Move}
    {rest : Program (Except MonitorError a.Result)} (h : AreMoves s₀ s es k a moves rest) :
    es.filterMap (Event.planeCall? k) = planeMoves moves := by
  refine h.filterMap_eq (fun e he => ?_) fun move => ?_
  · cases e with
    | call i a c => cases c <;> simp_all [Event.caller, Event.planeCall?]
    | _ => rfl
  · obtain ⟨c, answer, before, after⟩ := move
    cases c <;> simp [Event.planeCall?, Move.event, Move.plane?]

/-- Events among which the task makes only calls that spare the store leave it as it is. -/
theorem keepsStore_of_moves {a : Activity} {moves : List Move}
    (hes : es.filter (·.caller = some k) = moves.map (·.event k a))
    (hmoves : ∀ move ∈ moves, move.call.SparesStore) (s₀ s : Site) : s₀.KeepsStore es s k := by
  rintro es₁ e es₂ s₁ s₂ rfl - hstep - hcaller
  have he : e ∈ moves.map (·.event k a) := by
    rw [← hes]
    exact List.mem_filter.2 ⟨List.mem_append_right _ (.head _), decide_eq_true hcaller⟩
  obtain ⟨move, hmove, rfl⟩ := List.mem_map.1 he
  cases hstep with
  | call _ hw => exact hw.store_eq_of_spares (hmoves move hmove)

/-- A task of whose moves one records a run and the others do not write adds the run. -/
theorem AreMoves.addsRun (hnew : s₀.IsNew) (h : s₀.History es s) {a : Activity} (ha : a.Executes)
    {moves first last : List Move} {before after : Store} {r : Run}
    {rest : Program (Except MonitorError a.Result)} (hmoves : AreMoves s₀ s es k a moves rest)
    (honly : RecordsOnly r first before after last moves) : s₀.AddsRun es s k r := by
  obtain ⟨rfl, hfirst, hlast⟩ := honly
  obtain ⟨es₁, es₂, rfl, hes₁, hes₂⟩ := hmoves.split
  obtain ⟨s₁, s₂, hbefore, hstep, hafter⟩ := h.split_cons
  obtain ⟨g₁, hg₁, hseen₁⟩ := hbefore.exists_scene hnew.tasks
  obtain ⟨g₂, hgstep, hseen₂⟩ := hseen₁.step hstep
  obtain ⟨hunused, hadds⟩ :=
    hgstep.records_eq ⟨_, es₁, hnew.store, hnew.holder, hg₁⟩ ⟨k, a, ha, rfl⟩
  rw [hseen₁.commons] at hunused hadds
  rw [hseen₂.commons] at hadds
  exact ⟨es₁, s₁, _, s₂, es₂, rfl, hbefore, hstep, hafter, rfl, hunused, hadds,
    keepsStore_of_moves hes₁ hfirst _ _, keepsStore_of_moves hes₂ hlast _ _⟩

/-- A rerun that has succeeded has repeated the run, and has been recorded. -/
theorem History.repeats (hnew : s₀.IsNew) (h : s₀.History es s) {r r' : Run} {task : Task}
    (hr : HasRecorded r es) (htask : s.tasks[k]? = some task) (hrerun : task.HasRerun r.id r') :
    s₀.Repeats es s k r r' ∧ HasRecorded r' es := by
  obtain ⟨template, org, name, rfl⟩ := hrerun.eq
  have hbegun : s₀.tasks.length ≤ k := by
    rw [hnew.tasks]
    exact Nat.zero_le k
  obtain ⟨moves, hmoves⟩ := h.exists_moves hbegun htask
  obtain ⟨m, found, id', job, now, first, before, after, last, howner, ⟨_, _, hfind⟩, hr', hplane,
    honly⟩ := Service.rerun_plays_ok hmoves.leads.plays
  have hexecutes : (Activity.rerun template org name r.id).Executes := trivial
  have hadds := hmoves.addsRun hnew h hexecutes honly
  obtain ⟨rfl, -, -⟩ := honly
  have hrecorded : HasRecorded r' es :=
    ⟨_, hmoves.event_mem (List.mem_append_right _ (.head _)), k, _, hexecutes, rfl⟩
  obtain ⟨g, hg, -⟩ := h.exists_scene hnew.tasks
  have haccords := hg.accords hnew.store hnew.holder
  -- the run that it has found is the run that was recorded
  have horigin : found.origin = r.origin := by
    have hfound := hmoves.event_mem (List.mem_append_left _ hfind)
    obtain ⟨r₀, hr₀, horigin, hid⟩ := hg.recorded_of_found hnew.store hnew.holder hfound
    rw [horigin, (haccords.kept r₀ hr₀).only r hr hid.symm]
  have hwindow : r'.window = r.window := by
    rw [hr']
    exact congrArg RunOrigin.window horigin
  have hevaluators : r'.evaluators = r.evaluators := by
    rw [hr']
    exact congrArg RunOrigin.evaluators horigin
  have hother : r'.id ≠ r.id := by
    obtain ⟨es₁, es₂, rfl, hes₁, -⟩ := hmoves.split
    obtain ⟨g₁, g₂, hbefore, hstep, -⟩ := hg.split_cons
    have hfound := List.mem_of_mem_filter (hes₁ ▸ List.mem_map_of_mem hfind)
    exact hbefore.id_ne_of_found hnew.store hnew.holder hfound hstep ⟨k, _, hexecutes, rfl⟩
  have hcarries : ((Assignment.mk template org m found.window found.evaluators).spec id').Carries
      r' := by
    rw [hr']
    exact Assignment.spec_carries _ id' now
  refine ⟨⟨⟨_, job, hmoves.planeCalls.trans hplane, hcarries, fun spec hspec => ?_⟩, hother, ?_,
    hwindow, hevaluators, by rw [hr']; rfl, hadds⟩, hrecorded⟩
  · obtain ⟨spec₀, hcarries₀, hsubmission⟩ := (haccords.kept r hr).submission
    obtain rfl := hsubmission.only spec hspec
    rw [hcarries.subject_eq, hcarries₀.subject_eq, Run.subject, Run.subject, hwindow, hevaluators]
  · rw [hr']
    exact howner.symm.trans (congrArg RunOrigin.monitorId horigin)

/-- What is repeated again and again keeps its subject. -/
theorem History.chain (hnew : s₀.IsNew) (h : s₀.History es s) {r r' : Run} (hr : HasRecorded r es)
    (hchain : Relation.ReflTransGen s.HasRerun r r') :
    HasRecorded r' es ∧ r'.subject = r.subject := by
  induction hchain with
  | refl => exact ⟨hr, rfl⟩
  | tail _ hrerun ih =>
    obtain ⟨hr₁, hsubject⟩ := ih
    obtain ⟨k, task, htask, hrerun⟩ := hrerun
    obtain ⟨hrepeats, hr'⟩ := h.repeats hnew hr₁ htask hrerun
    refine ⟨hr', ?_⟩
    rw [← hsubject, Run.subject, Run.subject, hrepeats.window, hrepeats.evaluators]

/-- After every history that begins with an empty store, the runs that are stored are what they were
recorded as, whatever has become of their monitors, and whoever has carried out a run again has
submitted what was submitted for it and added one run, nothing else. -/
theorem runs_repeat (hnew : s₀.IsNew) (h : s₀.History es s) : s₀.RepeatsRuns es s := by
  obtain ⟨g, hg, hseen⟩ := h.exists_scene hnew.tasks
  have haccords := hg.accords hnew.store hnew.holder
  refine ⟨?_, fun r hr => ?_, fun r hr => (haccords.kept r hr).submission,
    fun r r' k task hr htask hrerun => h.repeats hnew hr htask hrerun, fun r r' hr hchain => ?_⟩
  · rw [← hseen.commons]
    exact haccords.recorded
  · rw [← hseen.commons]
    exact (haccords.kept r hr).stored
  · obtain ⟨hr', hsubject⟩ := h.chain hnew hr hchain
    refine ⟨hr', fun spec spec' hspec hspec' => ?_⟩
    obtain ⟨_, hcarries, hsubmission⟩ := (haccords.kept r hr).submission
    obtain ⟨_, hcarries', hsubmission'⟩ := (haccords.kept r' hr').submission
    rw [hsubmission.only spec hspec, hsubmission'.only spec' hspec', hcarries.subject_eq,
      hcarries'.subject_eq, hsubject]

/-- A past monitor is created and then given a second evaluator; its run is carried out again, and
then that run is. -/
def repeatedTwice : List Turn :=
  Turn.alone (.create "evaluation" "acme" (.tone "tone" (some ⟨⟨0, 0⟩, ⟨3600, 0⟩⟩))) 0 11 ++
    Turn.alone (.update "acme" "tone"
      ⟨none, some [.plain "tone" "Tone", .plain "care" "Care"], none, none⟩) 1 6 ++
    Turn.alone (.rerun "evaluation" "acme" "tone" (Surroundings.accepting.id 1)) 2 7 ++
    Turn.alone (.rerun "evaluation" "acme" "tone" (Surroundings.accepting.id 2)) 3 7

/-- Of a run that is carried out again, and again, after its monitor has been edited. -/
theorem runs_repeat_afterEdit :
    let s₀ := holding [] ⟨7200, 0⟩
    let s := s₀.after .accepting repeatedTwice
    s₀.IsNew ∧ s₀.History s.1 s.2 ∧ s₀.RepeatsRuns s.1 s.2 ∧
      (∃ m ∈ s.2.commons.store.monitors, m.evaluators.length = 2) ∧
      ∃ r r' r'', HasRecorded r s.1 ∧ s.2.HasRerun r r' ∧ s.2.HasRerun r' r'' ∧
        r''.evaluators.length = 1 := by
  intro s₀ s
  have hnew : s₀.IsNew := ⟨rfl, rfl, rfl⟩
  have h : s₀.History s.1 s.2 := history_after (by decide +kernel)
  have hrepeats : s₀.RepeatsRuns s.1 s.2 := runs_repeat hnew h
  have hedited : ∃ m ∈ s.2.commons.store.monitors, m.evaluators.length = 2 := by decide +kernel
  have hfirst : ∃ r ∈ s.2.commons.store.runs, r.id = Surroundings.accepting.id 1 ∧
      r.evaluators.length = 1 := by decide +kernel
  have hreruns : ((s.2.tasks[2]?.bind Task.rerun?).map fun x => (x.1, x.2.id)) =
        some (Surroundings.accepting.id 1, Surroundings.accepting.id 2) ∧
      ((s.2.tasks[3]?.bind Task.rerun?).map Prod.fst) = some (Surroundings.accepting.id 2) := by
    decide +kernel
  obtain ⟨r₁, hr₁, hid₁, hlength⟩ := hfirst
  obtain ⟨r, hr, horigin⟩ := hrepeats.recorded r₁ hr₁
  have hid : r.id = Surroundings.accepting.id 1 := (congrArg RunOrigin.id horigin).symm.trans hid₁
  obtain ⟨⟨_, r'⟩, hsome, heq⟩ := Option.map_eq_some_iff.1 hreruns.1
  obtain ⟨rfl, hid'⟩ := Prod.mk.inj heq
  obtain ⟨t, ht, hrerun⟩ := Option.bind_eq_some_iff.1 hsome
  obtain ⟨⟨_, r''⟩, hsome', rfl⟩ := Option.map_eq_some_iff.1 hreruns.2
  obtain ⟨t', ht', hrerun'⟩ := Option.bind_eq_some_iff.1 hsome'
  rw [← hid] at hrerun
  rw [← hid'] at hrerun'
  obtain ⟨hfirst, hr'⟩ := hrepeats.repeats r r' 2 t hr ht hrerun
  obtain ⟨hsecond, -⟩ := hrepeats.repeats r' r'' 3 t' hr' ht' hrerun'
  refine ⟨hnew, h, hrepeats, hedited, r, r', r'', hr, ⟨2, t, ht, hrerun⟩, ⟨3, t', ht', hrerun'⟩, ?_⟩
  have hevaluators : r₁.evaluators = r.evaluators := congrArg RunOrigin.evaluators horigin
  rw [hsecond.evaluators, hfirst.evaluators, ← hevaluators, hlength]

end Site

end TraceWatch
