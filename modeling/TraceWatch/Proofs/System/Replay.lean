import Mathlib.Algebra.Group.Nat.Defs
import TraceWatch.Proofs.System.Site

/-!
# Replaying a schedule

A schedule says whose turn it is, and the surroundings what the world outside answers. Together they
determine everything that happens at a site: `Site.replay` computes it, and `Site.replay_history`
says that what it computes is a history. So a history can be given by its schedule.
-/

namespace TraceWatch

/-- What the world outside a site decides: the identifiers in the order in which they are drawn,
whether tasks are told to stop, and the answers of the workflow plane. -/
structure Surroundings where
  id : Nat → Uuid
  cancelled : Bool
  plane : (c : PlaneCall) → Except PlaneError c.Answer

namespace Surroundings

/-- Surroundings that accept every job and know nothing about it later. The identifiers differ in
their first digits. -/
def accepting : Surroundings where
  id n := ⟨BitVec.ofNat 128 (n * 2 ^ 96)⟩
  cancelled := false
  plane
    | .submit spec => .ok (.run spec.space spec.name)
    | .delete _ => .ok ()
    | .resource job => .error (.notFound job.name)
    | .agent _ _ agent => .ok agent
    | .environment _ environment => .ok environment
    | .logs _ _ => .ok []

/-- How surroundings that take no job answer. -/
def rejection : PlaneError := .rejected 503 "unavailable"

/-- Surroundings that take no job. -/
def rejecting : Surroundings where
  id := accepting.id
  cancelled := accepting.cancelled
  plane
    | .submit _ => .error rejection
    | c => accepting.plane c

end Surroundings

/-- Whose turn it is. -/
inductive Turn where
  | clock (t : Timestamp)
  | newcomer (a : Activity)
  | task (i : Nat)

/-- An activity begins, as the task with this number, and makes so many calls undisturbed. -/
def Turn.alone (a : Activity) (task calls : Nat) : List Turn :=
  .newcomer a :: List.replicate calls (.task task)

namespace StoreCall

/-- What a call answers, and the store after it. Sorting is not computed: what is due has to be
stored in the order in which it is due. -/
def computed? (now : Timestamp) (s : Store) :
    (c : StoreCall) → Option (Except StoreError c.Answer × Store)
  | .dueMonitors at' =>
    let due := s.monitors.filter (·.isDue at')
    if due.Pairwise (fun a b => Store.instantLe a.nextRun b.nextRun) then some (.ok due, s)
    else none
  | c => some (c.perform now s)

theorem eq_perform_of_computed? {now : Timestamp} {s : Store} {c : StoreCall}
    {result : Except StoreError c.Answer × Store} (h : c.computed? now s = some result) :
    result = c.perform now s := by
  cases c with
  | dueMonitors at' =>
    simp only [computed?] at h
    split at h
    · next hsorted =>
      cases h
      rw [perform, Store.dueMonitors, List.mergeSort_of_pairwise hsorted]
    · cases h
  | _ => exact (Option.some.inj h).symm

end StoreCall

namespace Commons

/-- How a call is answered in given surroundings, and what the tasks share afterwards. -/
def answer? (w : Commons) (env : Surroundings) (task : Nat) :
    (c : Call) → Option (c.Answer × Commons)
  | .now => some (w.clock, w)
  | .freshId =>
    let id := env.id w.issued.length
    if id ∈ w.issued then none else some (id, { w with issued := id :: w.issued })
  | .cancelled => some (env.cancelled, w)
  | .count _ => some ((), w)
  | .acquireLock =>
    if w.holder = none then some (.ok true, { w with holder := some task })
    else some (.ok false, w)
  | .releaseLock => some (.ok (), w.freeLock task)
  | .store c => (c.computed? w.clock w.store).map fun (answer, store) =>
    (answer, { w with store })
  | .plane c => some (env.plane c, w)

theorem answers_of_answer? {w w' : Commons} {env : Surroundings} {task : Nat} :
    ∀ {c : Call} {answer : c.Answer}, w.answer? env task c = some (answer, w') →
      w.Answers task c answer w'
  | .now, _, h | .releaseLock, _, h => by
    cases h
    exact ⟨rfl, rfl⟩
  | .cancelled, _, h | .count _, _, h | .plane _, _, h => by
    cases h
    rfl
  | .freshId, _, h => by
    simp only [answer?] at h
    split at h
    · cases h
    · cases h
      exact ⟨‹_›, rfl⟩
  | .acquireLock, _, h => by
    simp only [answer?] at h
    split at h
    · cases h
      exact .inl ⟨‹_›, rfl, rfl⟩
    · cases h
      exact .inr ⟨‹_›, rfl, rfl⟩
  | .store c, _, h => by
    obtain ⟨result, hcomputed, heq⟩ := Option.map_eq_some_iff.1 h
    rw [StoreCall.eq_perform_of_computed? hcomputed] at heq
    cases heq
    exact ⟨rfl, rfl⟩

end Commons

/-- A monitor of an organization that is evaluated every hour, with an identifier and a name. -/
def Monitor.hourly (id : Nat) (name : String) (next : Timestamp) : Monitor where
  id := ⟨BitVec.ofNat 128 id⟩
  name
  displayName := name
  kind := .future
  org := "acme"
  project := "support"
  agent := "helper"
  agentId := "agent-1"
  environment := "production"
  environmentId := "environment-1"
  evaluators := [.plain "tone" "Tone"]
  samplingRate := NewMonitor.defaultSamplingRate
  interval := some NewMonitor.defaultInterval
  nextRun := some next
  traceStart := none
  traceEnd := none
  createdAt := ⟨0, 0⟩
  updatedAt := ⟨0, 0⟩

/-- A request for a monitor with a name, of a window of the past or, without one, of traces to
come. -/
def NewMonitor.tone (name : String) (window : Option Window) : NewMonitor where
  name
  displayName := name
  kind := if window.isSome then .past else .future
  project := "support"
  agent := "helper"
  environment := "production"
  evaluators := [.plain "tone" "Tone"]
  samplingRate := none
  interval := none
  traceStart := window.map Window.start
  traceEnd := window.map Window.stop

namespace Site

/-- A site that has monitors in its store and no runs, at its beginning. -/
def holding (ms : List Monitor) (clock : Timestamp) : Site where
  commons := { store := ⟨ms, []⟩, holder := none, clock, issued := ms.map Monitor.id }
  tasks := []

/-- A site that has monitors with different identifiers in its store is fresh. -/
theorem holding_isFresh {ms : List Monitor} (hms : (ms.map Monitor.id).Nodup) (clock : Timestamp) :
    (holding ms clock).IsFresh where
  tasks := rfl
  holder := rfl
  monitorIds := hms
  monitorIssued := fun _ hm => List.mem_map_of_mem hm
  runIssued := fun _ hr => absurd hr List.not_mem_nil

/-- What happens when it is somebody's turn. -/
def turn? (s : Site) (env : Surroundings) : Turn → Option (Event × Site)
  | .clock t => some (.tick t, ⟨{ s.commons with clock := t }, s.tasks⟩)
  | .newcomer a => some (.begins a, ⟨s.commons, s.tasks ++ [.new a]⟩)
  | .task i =>
    match s.tasks[i]? with
    | some ⟨a, .call c next⟩ =>
      match s.commons.answer? env i c with
      | some (answer, w) => some (.call i a c answer, ⟨w, s.tasks.set i ⟨a, next answer⟩⟩)
      | none => none
    | some ⟨_, .halt⟩ => some (.drops i, ⟨s.commons.freeLock i, s.tasks⟩)
    | _ => none

theorem step_of_turn? {s s' : Site} {env : Surroundings} {turn : Turn} {e : Event}
    (h : s.turn? env turn = some (e, s')) : Step s e s' := by
  cases turn with
  | clock t =>
    cases h
    exact .tick _ _ _
  | newcomer a =>
    cases h
    exact .begins _ _ _
  | task i =>
    simp only [turn?] at h
    split at h
    · next htask =>
      split at h
      · next hans =>
        cases h
        exact .call htask (Commons.answers_of_answer? hans)
      · cases h
    · next htask =>
      cases h
      exact .drops htask
    · cases h

/-- Everything that happens under a schedule. -/
def replay (env : Surroundings) : List Turn → Site → Option (List Event × Site)
  | [], s => some ([], s)
  | turn :: rest, s =>
    match s.turn? env turn with
    | none => none
    | some (e, s') => (replay env rest s').map fun (es, s'') => (e :: es, s'')

/-- What happens under a schedule is a history. -/
theorem replay_history {env : Surroundings} : ∀ {turns : List Turn} {s s' : Site}
    {es : List Event}, replay env turns s = some (es, s') → History s es s'
  | [], _, _, _, h => by
    cases h
    exact .nil
  | turn :: rest, s, s', es, h => by
    simp only [replay] at h
    split at h
    · cases h
    · next e s₁ hturn =>
      obtain ⟨⟨es', s₂⟩, hrest, heq⟩ := Option.map_eq_some_iff.1 h
      cases heq
      have first : History s [e] s₁ := .snoc .nil (step_of_turn? hturn)
      exact first.append (replay_history hrest)

/-- Under a schedule the workflow plane answers as it does in the surroundings. -/
theorem plane_of_replay {env : Surroundings} : ∀ {turns : List Turn} {s s' : Site}
    {es : List Event}, replay env turns s = some (es, s') → ∀ {i : Nat} {a : Activity}
    {c : PlaneCall} {answer : Except PlaneError c.Answer}, .call i a (.plane c) answer ∈ es →
    answer = env.plane c
  | [], _, _, _, h, _, _, _, _, hmem => by
    cases h
    cases hmem
  | turn :: rest, s, s', es, h, i, a, c, answer, hmem => by
    simp only [replay] at h
    split at h
    · cases h
    · next e s₁ hturn =>
      obtain ⟨⟨es', s₂⟩, hrest, heq⟩ := Option.map_eq_some_iff.1 h
      cases heq
      rcases List.mem_cons.1 hmem with rfl | hmem
      · cases turn with
        | clock | newcomer => cases hturn
        | task j =>
          simp only [turn?] at hturn
          split at hturn
          · split at hturn
            · next hans =>
              cases hturn
              cases hans
              rfl
            · cases hturn
          · cases hturn
          · cases hturn
      · exact plane_of_replay hrest hmem

/-- What has happened under a schedule, and the site afterwards; nothing if the schedule cannot be
kept to. -/
def after (env : Surroundings) (turns : List Turn) (s : Site) : List Event × Site :=
  (replay env turns s).getD ([], s)

/-- A schedule that can be kept to gives a history. -/
theorem history_after {env : Surroundings} {turns : List Turn} {s : Site}
    (h : (replay env turns s).isSome = true) :
    History s (after env turns s).1 (after env turns s).2 := by
  obtain ⟨⟨es, s'⟩, heq⟩ := Option.isSome_iff_exists.1 h
  rw [after, heq]
  exact replay_history heq

/-- What happens under a schedule tells what the workflow plane answers in the surroundings. -/
theorem plane_of_after {env : Surroundings} {turns : List Turn} {s : Site} {i : Nat} {a : Activity}
    {c : PlaneCall} {answer : Except PlaneError c.Answer}
    (h : .call i a (.plane c) answer ∈ (after env turns s).1) : answer = env.plane c := by
  unfold after at h
  cases hreplay : replay env turns s with
  | none =>
    rw [hreplay] at h
    cases h
  | some out =>
    rw [hreplay] at h
    exact plane_of_replay hreplay h

end Site

end TraceWatch
