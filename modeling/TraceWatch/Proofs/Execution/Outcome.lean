import Mathlib.Logic.ExistsUnique
import TraceWatch.Proofs.Execution.Assignment
import TraceWatch.Proofs.Program.Plays
import TraceWatch.Proofs.Store.Frame
import TraceWatch.Proofs.System.Replay

/-!
# The outcomes of an execution

An execution submits a job before it records the run, so the two can come apart: the plane may
refuse the job, and the monitor may be gone when the run is to be recorded. `execution_outcome` says
that there are exactly four ways for an execution to come out, whatever the plane answers and
whatever others do to the store meanwhile, and what each of them leaves behind.
-/

namespace TraceWatch

/-! ## What is left behind -/

/-- A job carries a run: it bears its name, its identifiers, its window and its evaluators. -/
structure JobSpec.Carries (spec : JobSpec) (r : Run) : Prop where
  name : spec.name = r.jobName
  runId : spec.parameters.runId = r.id.render
  monitorId : spec.parameters.monitorId = r.monitorId.render
  traceStart : spec.parameters.traceStart = r.window.start.renderSeconds
  traceEnd : spec.parameters.traceEnd = r.window.stop.renderSeconds
  evaluators : spec.parameters.evaluators = (Evaluator.listToJson r.evaluators).render

/-- The job and the record of an assignment are of one run. -/
theorem Assignment.spec_carries (x : Assignment) (id : Uuid) (now : Timestamp) :
    (x.spec id).Carries (x.record id now) :=
  ⟨rfl, rfl, rfl, rfl, rfl, rfl⟩

/-- Among the moves there is one that adds a run to the store, and nothing else is changed. -/
def AddsOnly (r : Run) (moves : List Move) : Prop :=
  ∃ earlier later c answer before,
    moves = earlier ++ ⟨c, answer, before, ⟨before.monitors, before.runs ++ [r]⟩⟩ :: later ∧
      AllIdle earlier ∧ AllIdle later

/-- Among the moves there is the attempt to record the run, refused with an error since the monitor
is not in the store. -/
def FindsGone (x : Assignment) (id : Uuid) (e : StoreError) (moves : List Move) : Prop :=
  ∃ now before after, ⟨.store (.createRun (x.record id now)), .error e, before, after⟩ ∈ moves ∧
    before.findMonitor x.monitor.id = none

/-- When a run is to be recorded, no run in the store has its identifier. What is in the store
before that or afterwards does not matter: a run that has been recorded has its identifier. -/
def RecordsUnused (moves : List Move) : Prop :=
  ∀ r answer before after, ⟨.store (.createRun r), answer, before, after⟩ ∈ moves →
    before.findRun r.id = none

theorem RecordsUnused.of_subset {moves moves' : List Move} (h : RecordsUnused moves)
    (hsub : moves' ⊆ moves) : RecordsUnused moves' :=
  fun r answer before after hmove => h r answer before after (hsub hmove)

/-! ## The four outcomes -/

/-- How an execution can come out. -/
inductive Outcome where
  /-- There is nothing to evaluate. -/
  | refused
  /-- The plane does not take the job. -/
  | rejected
  /-- The run cannot be recorded, and the job is deleted again. -/
  | compensated
  /-- The run is recorded. -/
  | recorded
deriving DecidableEq, Repr

namespace Outcome

/-- What an outcome means for an execution under a run identifier: which calls of the plane there
are among its moves, what they do to the store, and what it returns. -/
def Describes (x : Assignment) (id : Uuid) (moves : List Move)
    (result : Except MonitorError Run) : Outcome → Prop
  | refused =>
    x.evaluators = [] ∧ planeMoves moves = [] ∧ AllIdle moves ∧
      result = .error (.validation (.nothingToRun x.monitor.name))
  | rejected =>
    ∃ e, planeMoves moves = [⟨.submit (x.spec id), .error e⟩] ∧ AllIdle moves ∧
      result = .error (.plane e)
  | compensated =>
    ∃ job answer e,
      planeMoves moves = [⟨.submit (x.spec id), .ok job⟩, ⟨.delete job, answer⟩] ∧
        FindsGone x id e moves ∧ AllIdle moves ∧ result = .error (.store e)
  | recorded =>
    ∃ job r, planeMoves moves = [⟨.submit (x.spec id), .ok job⟩] ∧ AddsOnly r moves ∧
      r.id = id ∧ r.monitorId = x.monitor.id ∧ r.window = x.window ∧
      r.evaluators = x.evaluators ∧ r.status = .pending ∧ (x.spec id).Carries r ∧ result = .ok r

/-- The outcome that a result shows. -/
def ofResult : Except MonitorError Run → Outcome
  | .ok _ => recorded
  | .error (.plane _) => rejected
  | .error (.store _) => compensated
  | .error _ => refused

/-- The result of an execution shows how it came out, so no two outcomes describe one. -/
theorem eq_ofResult {x : Assignment} {id : Uuid} {moves : List Move}
    {result : Except MonitorError Run} :
    ∀ {o : Outcome}, o.Describes x id moves result → o = ofResult result
  | refused, ⟨_, _, _, h⟩ => by rw [h]; rfl
  | rejected, ⟨_, _, _, h⟩ => by rw [h]; rfl
  | compensated, ⟨_, _, _, _, _, _, h⟩ => by rw [h]; rfl
  | recorded, ⟨_, _, _, _, _, _, _, _, _, _, h⟩ => by rw [h]; rfl

end Outcome

namespace Assignment

open Program

/-- An execution always comes to an end. -/
theorem operation_returns (x : Assignment) : x.operation.run.Returns := by
  rw [operation_run]
  intro id
  dsimp only
  split
  · trivial
  · rintro (e | job)
    · trivial
    · intro now
      rintro (e | _)
      · exact fun _ => trivial
      · exact fun _ => trivial

/-- Once the job is accepted, either the run is recorded or the job is deleted again. -/
theorem afterSubmission_plays {x : Assignment} {id : Uuid} {job : JobRef} {moves : List Move}
    {result : Except MonitorError Run} (h : Plays (x.afterSubmission id job) moves result)
    (hunused : RecordsUnused moves) :
    (∃ answer e, planeMoves moves = [⟨.delete job, answer⟩] ∧ FindsGone x id e moves ∧
        AllIdle moves ∧ result = .error (.store e)) ∨
      ∃ now, planeMoves moves = [] ∧ AddsOnly (x.record id now) moves ∧
        result = .ok (x.record id now) := by
  obtain ⟨now, s₁, s₁', rest, rfl, hnow, hrest⟩ := h.of_call
  obtain ⟨answer, s₂, s₂', rest, rfl, ⟨clock, hrecord⟩, hrest⟩ := hrest.of_call
  rcases StoreCall.createRun_cases hrecord with ⟨e, rfl, hidle, hgone⟩ | ⟨rfl, hadd⟩
  · -- the record is refused
    obtain ⟨deleted, s₃, s₃', rest, rfl, hdelete, hrest⟩ := hrest.of_call
    obtain ⟨rfl, rfl⟩ := hrest.of_done
    refine .inl ⟨deleted, e, rfl, ⟨now, s₂, s₂', .tail _ (.head _), hgone⟩, ?_, rfl⟩
    simp only [allIdle_cons, allIdle_nil, and_true]
    exact ⟨hnow, hidle, hdelete⟩
  · -- the run is recorded, and counted
    obtain ⟨_, s₃, s₃', rest, rfl, hcount, hrest⟩ := hrest.of_call
    obtain ⟨rfl, rfl⟩ := hrest.of_done
    obtain rfl := hadd (hunused _ _ _ _ (.tail _ (.head _)))
    refine .inr ⟨now, rfl, ⟨[_], [_], _, _, _, rfl, ?_, ?_⟩, rfl⟩
    · exact allIdle_cons.2 ⟨hnow, allIdle_nil⟩
    · exact allIdle_cons.2 ⟨hcount, allIdle_nil⟩

end Assignment

open Program Outcome in
/-- An execution comes to an end, and in exactly one of four ways: it is refused, rejected,
compensated or recorded. Its identifier only has to be unused when the run is recorded. -/
theorem execution_outcome (x : Assignment) :
    (Service.execute x.template x.org x.monitor x.window x.evaluators).run.Returns ∧
      ∀ moves result,
        Plays (Service.execute x.template x.org x.monitor x.window x.evaluators).run moves result →
        RecordsUnused moves →
          ∃ id before after rest, moves = ⟨.freshId, id, before, after⟩ :: rest ∧
            ∃! o : Outcome, o.Describes x id moves result := by
  refine ⟨x.operation_returns, fun moves result h hunused => ?_⟩
  change Plays x.operation.run moves result at h
  rw [Assignment.operation_run] at h
  obtain ⟨id, s, s', rest, rfl, hdraw, hrest⟩ := h.of_call
  refine ⟨id, s, s', rest, rfl, ?_⟩
  refine existsUnique_of_exists_of_unique ?_ fun o o' ho ho' =>
    (eq_ofResult ho).trans (eq_ofResult ho').symm
  split at hrest
  · next hempty =>
    obtain ⟨rfl, rfl⟩ := hrest.of_done
    exact ⟨refused, List.isEmpty_iff.1 hempty, rfl, allIdle_cons.2 ⟨hdraw, allIdle_nil⟩, rfl⟩
  · obtain ⟨answer, s₁, s₁', rest, rfl, hsubmit, hrest⟩ := hrest.of_call
    cases answer with
    | error e =>
      obtain ⟨rfl, rfl⟩ := hrest.of_done
      refine ⟨rejected, e, rfl, ?_, rfl⟩
      simp only [allIdle_cons, allIdle_nil, and_true]
      exact ⟨hdraw, hsubmit⟩
    | ok job =>
      rcases Assignment.afterSubmission_plays hrest
          (hunused.of_subset fun move hmove => .tail _ (.tail _ hmove)) with
        ⟨deleted, e, hplane, hgone, hidle, rfl⟩ | ⟨now, hplane, hadds, rfl⟩
      · obtain ⟨now, before, after, hmove, hgone⟩ := hgone
        refine ⟨compensated, job, deleted, e, congrArg _ hplane, ?_, ?_, rfl⟩
        · exact ⟨now, before, after, .tail _ (.tail _ hmove), hgone⟩
        · exact allIdle_cons.2 ⟨hdraw, allIdle_cons.2 ⟨hsubmit, hidle⟩⟩
      · obtain ⟨earlier, later, c, answer, before, rfl, hearlier, hlater⟩ := hadds
        refine ⟨recorded, job, x.record id now, congrArg _ hplane, ?_, rfl, rfl, rfl, rfl, rfl,
          x.spec_carries id now, rfl⟩
        refine ⟨_ :: _ :: earlier, later, c, answer, before, rfl, ?_, hlater⟩
        exact allIdle_cons.2 ⟨hdraw, allIdle_cons.2 ⟨hsubmit, hearlier⟩⟩

/-- The move is where a run fails: its job is rejected, or its record is refused. -/
inductive Move.FailsRun : Move → Prop
  | submission (spec : JobSpec) (e : PlaneError) (before after : Store) :
    FailsRun ⟨.plane (.submit spec), .error e, before, after⟩
  | record (r : Run) (e : StoreError) (before after : Store) :
    FailsRun ⟨.store (.createRun r), .error e, before, after⟩

open Program in
/-- An execution that fails leaves the store alone, whatever the store is by then; one that succeeds
has met with no failure. -/
theorem Assignment.error_or_ok {x : Assignment} {moves : List Move}
    {result : Except MonitorError Run} (h : Plays x.operation.run moves result) :
    (∃ e, result = .error e ∧ AllIdle moves) ∨
      ∃ r, result = .ok r ∧ ∀ move ∈ moves, ¬ move.FailsRun := by
  rw [operation_run] at h
  obtain ⟨id, s, s', rest, rfl, hdraw, h⟩ := h.of_call
  split at h
  · obtain ⟨rfl, rfl⟩ := h.of_done
    exact .inl ⟨_, rfl, allIdle_cons.2 ⟨hdraw, allIdle_nil⟩⟩
  · obtain ⟨answer, s₁, s₁', rest, rfl, hsubmit, h⟩ := h.of_call
    cases answer with
    | error e =>
      obtain ⟨rfl, rfl⟩ := h.of_done
      exact .inl ⟨_, rfl, allIdle_cons.2 ⟨hdraw, allIdle_cons.2 ⟨hsubmit, allIdle_nil⟩⟩⟩
    | ok job =>
      obtain ⟨now, s₂, s₂', rest, rfl, hnow, h⟩ := h.of_call
      obtain ⟨answer, s₃, s₃', rest, rfl, ⟨clock, hrecord⟩, h⟩ := h.of_call
      rcases StoreCall.createRun_cases hrecord with ⟨e, rfl, hsame, -⟩ | ⟨rfl, -⟩
      · obtain ⟨deleted, s₄, s₄', rest, rfl, hdelete, h⟩ := h.of_call
        obtain ⟨rfl, rfl⟩ := h.of_done
        refine .inl ⟨_, rfl, ?_⟩
        simp only [allIdle_cons, allIdle_nil, and_true]
        exact ⟨hdraw, hsubmit, hnow, hsame, hdelete⟩
      · obtain ⟨counted, s₄, s₄', rest, rfl, -, h⟩ := h.of_call
        obtain ⟨rfl, rfl⟩ := h.of_done
        refine .inr ⟨_, rfl, fun move hmove hfails => ?_⟩
        simp only [List.mem_cons, List.not_mem_nil, or_false] at hmove
        rcases hmove with rfl | rfl | rfl | rfl | rfl <;> cases hfails

/-- An hourly monitor that is carried out over an hour. -/
def Assignment.hourly : Assignment :=
  ⟨"evaluation", "acme", .hourly 1000 "tone" ⟨3600, 0⟩, ⟨⟨0, 0⟩, ⟨3520, 0⟩⟩, [.plain "tone" "Tone"]⟩

/-- What an execution does when its monitor is stopped while the job is being submitted. -/
def stoppedMeanwhile : List Move :=
  let x := Assignment.hourly
  let present : Store := ⟨[x.monitor], []⟩
  let stopped : Store := ⟨[{ x.monitor with nextRun := none }], []⟩
  let recorded : Store := ⟨stopped.monitors, [x.record ⟨1⟩ ⟨3700, 0⟩]⟩
  let job := JobRef.run "acme" "tone-00000000"
  [⟨.freshId, ⟨1⟩, present, present⟩, ⟨.plane (.submit (x.spec ⟨1⟩)), .ok job, present, present⟩,
    ⟨.now, ⟨3700, 0⟩, stopped, stopped⟩,
    ⟨.store (.createRun (x.record ⟨1⟩ ⟨3700, 0⟩)), .ok (), stopped, recorded⟩,
    ⟨.count .runSubmitted, (), recorded, recorded⟩]

/-- What an execution does when its monitor is deleted while the job is being submitted. -/
def deletedMeanwhile : List Move :=
  let x := Assignment.hourly
  let present : Store := ⟨[x.monitor], []⟩
  let job := JobRef.run "acme" "tone-00000000"
  let gone := StoreError.notFound ("monitor " ++ x.monitor.id.render)
  [⟨.freshId, ⟨1⟩, present, present⟩, ⟨.plane (.submit (x.spec ⟨1⟩)), .ok job, present, present⟩,
    ⟨.now, ⟨3700, 0⟩, .empty, .empty⟩,
    ⟨.store (.createRun (x.record ⟨1⟩ ⟨3700, 0⟩)), .error gone, .empty, .empty⟩,
    ⟨.plane (.delete job), .ok (), .empty, .empty⟩]

open Program Outcome in
/-- Of an execution whose monitor is stopped, and of one whose monitor is deleted, while the job is
being submitted: the run is recorded in the one case, and the job deleted again in the other. -/
theorem execution_outcome_meanwhile :
    let x := Assignment.hourly
    let operation := (Service.execute x.template x.org x.monitor x.window x.evaluators).run
    let recorded := .ok (x.record ⟨1⟩ ⟨3700, 0⟩)
    let gone := .error (.store (.notFound ("monitor " ++ x.monitor.id.render)))
    (Plays operation stoppedMeanwhile recorded ∧ RecordsUnused stoppedMeanwhile ∧
      ∃ id before after rest, stoppedMeanwhile = ⟨.freshId, id, before, after⟩ :: rest ∧
        ∃! o : Outcome, o.Describes x id stoppedMeanwhile recorded) ∧
    Plays operation deletedMeanwhile gone ∧ RecordsUnused deletedMeanwhile ∧
      ∃ id before after rest, deletedMeanwhile = ⟨.freshId, id, before, after⟩ :: rest ∧
        ∃! o : Outcome, o.Describes x id deletedMeanwhile gone := by
  intro x operation recorded gone
  have hoperation : operation = x.operation.run := rfl
  have hstopped : Plays operation stoppedMeanwhile recorded := by
    rw [hoperation, Assignment.operation_run]
    exact .call rfl (.call rfl (.call rfl (.call ⟨⟨0, 0⟩, rfl⟩ (.call rfl (.done _)))))
  have hdeleted : Plays operation deletedMeanwhile gone := by
    rw [hoperation, Assignment.operation_run]
    exact .call rfl (.call rfl (.call rfl (.call ⟨⟨0, 0⟩, rfl⟩ (.call rfl (.done _)))))
  -- in both cases there is no run in the store when one is to be recorded
  have hunused : RecordsUnused stoppedMeanwhile ∧ RecordsUnused deletedMeanwhile := by
    constructor <;> intro r answer before after hmove <;>
      simp only [stoppedMeanwhile, deletedMeanwhile, List.mem_cons, List.not_mem_nil, or_false]
        at hmove <;>
      rcases hmove with h | h | h | h | h <;> cases h <;> rfl
  exact ⟨⟨hstopped, hunused.1, (execution_outcome x).2 _ _ hstopped hunused.1⟩,
    hdeleted, hunused.2, (execution_outcome x).2 _ _ hdeleted hunused.2⟩

end TraceWatch
