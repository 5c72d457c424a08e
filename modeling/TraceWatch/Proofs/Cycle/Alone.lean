import TraceWatch.Proofs.Cycle.Treatment
import TraceWatch.Proofs.Lock.Order
import TraceWatch.Proofs.Runs.Settlement
import TraceWatch.Proofs.Schedule.Calendar

/-!
# Cycles that are left to themselves

At a site where a cycle has the lock, is not told to stop and makes all the calls, what it does is a
round. The identifiers that it draws are new to the store it begins with, so it treats each monitor
by itself (`Site.cycle_treats_each`), and as long as nothing out of the ordinary happens it does not
halt.
-/

namespace TraceWatch

/-! ## Identifiers that are drawn at a site -/

/-- The identifier that is drawn with the event. -/
def Event.drawn? : Event → Option Uuid
  | call _ _ .freshId id => some id
  | _ => none

/-- Whether the task is told to stop with the event. -/
def Event.isStop (k : Nat) : Event → Bool
  | call i _ .cancelled stop => stop && i = k
  | _ => false

namespace Site

variable {s₀ s s' : Site} {es₀ es : List Event} {k : Nat}

/-- What is drawn has not been handed out before, and nothing else is handed out. -/
theorem Step.drawn {e : Event} (h : Step s e s') :
    (e.drawn? = none ∧ s'.commons.issued = s.commons.issued) ∨
      ∃ id, e.drawn? = some id ∧ id ∉ s.commons.issued ∧
        s'.commons.issued = id :: s.commons.issued := by
  cases h with
  | tick | begins => exact .inl ⟨rfl, rfl⟩
  | @drops w _ i => exact .inl ⟨rfl, w.freeLock_issued i⟩
  | @call w w' _ i a c _ answer _ hw =>
    by_cases hc : c = .freshId
    · subst hc
      obtain ⟨hfresh, rfl⟩ := hw
      exact .inr ⟨answer, rfl, hfresh, rfl⟩
    · refine .inl ⟨?_, hw.issued_eq hc⟩
      cases c <;> first | rfl | exact absurd rfl hc

/-- Whatever is drawn in a history is drawn once, and had not been handed out before. -/
theorem History.drawn (h : s.History es s') :
    (es.filterMap Event.drawn?).Nodup ∧ s.commons.issued ⊆ s'.commons.issued ∧
      ∀ id ∈ es.filterMap Event.drawn?, id ∉ s.commons.issued ∧ id ∈ s'.commons.issued := by
  induction h with
  | nil => exact ⟨List.nodup_nil, List.Subset.refl _, List.forall_mem_nil _⟩
  | snoc _ hstep ih =>
    obtain ⟨hnodup, hkept, hdrawn⟩ := ih
    rw [List.filterMap_append]
    rcases hstep.drawn with ⟨hnone, hissued⟩ | ⟨id, hsome, hfresh, hissued⟩
    · rw [List.filterMap_cons_none hnone, List.filterMap_nil, List.append_nil, hissued]
      exact ⟨hnodup, hkept, hdrawn⟩
    · rw [List.filterMap_cons_some hsome, List.filterMap_nil, hissued]
      refine ⟨?_, List.subset_cons_of_subset _ hkept, fun id' hid' => ?_⟩
      · refine List.nodup_append'.2 ⟨hnodup, List.nodup_singleton _, fun id' hold hnew => ?_⟩
        obtain rfl := List.mem_singleton.1 hnew
        exact hfresh (hdrawn id' hold).2
      · rcases List.mem_append.1 hid' with hold | hnew
        · exact ⟨(hdrawn id' hold).1, .tail _ (hdrawn id' hold).2⟩
        · obtain rfl := List.mem_singleton.1 hnew
          exact ⟨fun hold => hfresh (hkept hold), .head _⟩

/-- What a task draws is drawn in the history. -/
theorem AreMoves.drawnIds_sublist {a : Activity} {moves : List Move}
    {rest : Program (Except MonitorError a.Result)} (h : AreMoves s₀ s es k a moves rest) :
    (drawnIds moves).Sublist (es.filterMap Event.drawn?) := by
  have hmoves : Event.drawn? ∘ (·.event k a) = Move.drawn? := by
    funext move
    obtain ⟨c, answer, before, after⟩ := move
    cases c <;> rfl
  have hown := congrArg (List.filterMap Event.drawn?) h.events
  rw [List.filterMap_map, hmoves] at hown
  rw [drawnIds, ← hown]
  exact List.filter_sublist.filterMap _

/-- What a task draws spares the runs that were stored when it began, if their identifiers had been
handed out. -/
theorem AreMoves.spares {a : Activity} {moves : List Move}
    {rest : Program (Except MonitorError a.Result)} (h : AreMoves s₀ s es k a moves rest)
    (hes : s₀.History es s) (hissued : ∀ r ∈ s₀.commons.store.runs, r.id ∈ s₀.commons.issued) :
    s₀.commons.store.Spares (drawnIds moves) := by
  obtain ⟨hnodup, -, hdrawn⟩ := hes.drawn
  refine ⟨hnodup.sublist h.drawnIds_sublist, ?_⟩
  rintro id hid ⟨r, hr, rfl⟩
  exact (hdrawn r.id (h.drawnIds_sublist.mem hid)).1 (hissued r hr)

/-- The runs of a reachable site have identifiers that have been handed out. -/
theorem Reachable.runs_issued (h : s.Reachable) :
    ∀ r ∈ s.commons.store.runs, r.id ∈ s.commons.issued := by
  obtain ⟨g, hg, hseen⟩ := h.exists_scene
  obtain ⟨home, hid⟩ := hg.identities
  exact hseen.commons ▸ hid.recorded

/-- The monitors of a reachable site keep to the rules. -/
theorem Reachable.isWellFormed (h : s.Reachable) :
    ∀ m ∈ s.commons.store.monitors, m.IsWellFormed := by
  obtain ⟨g, hg, hseen⟩ := h.exists_scene
  exact fun m hm => hg.isWellFormed m (.inl (hseen.commons ▸ hm))

/-! ## The statement -/

/-- In the history a cycle begins, gets the lock and comes to its end, with the rest. It is not told
to stop, and nobody else makes a call. -/
structure CyclesAlone (s : Site) (es : List Event) (s' : Site) (k : Nat) (template : String)
    (rest : Program (Except MonitorError CycleOutcome)) : Prop where
  history : s.History es s'
  begun : s.tasks.length ≤ k
  task : s'.tasks[k]? = some ⟨.cycle template, rest⟩
  ended : (⟨.cycle template, rest⟩ : Task).IsOver
  locked : ∃ e ∈ es, e.Takes k
  unstopped : ∀ e ∈ es, e.isStop k = false
  alone : ∀ e ∈ es, ∀ i ∈ e.caller, i = k

/-- First of all the cycle has taken the lock and read the instant off the clock. -/
def StartsAt (k : Nat) (template : String) (t : Timestamp) (es : List Event) : Prop :=
  ∃ later, es.filter (·.caller = some k) =
    .call k (.cycle template) .acquireLock (.ok true) :: .call k (.cycle template) .now t :: later

theorem StartsAt.now_mem {template : String} {t : Timestamp} (h : StartsAt k template t es) :
    .call k (.cycle template) .now t ∈ es := by
  obtain ⟨later, hcalls⟩ := h
  have hmem : .call k (.cycle template) .now t ∈ es.filter (·.caller = some k) := by
    rw [hcalls]
    exact .tail _ (.head _)
  exact (List.mem_filter.1 hmem).1

/-- From one site to the other the cycle that has started at the instant treats each monitor by
itself. The store in which it turns to the runs is the one from which it lists those that are
unfinished. -/
def TreatsEach (s : Site) (es : List Event) (s' : Site) (k : Nat) (template : String)
    (t : Timestamp) (tally : Tally) : Prop :=
  ∃ s₁ entries, s.ComesTo s' es k (.cycle template) ⟨.store .inFlight, .ok entries, s₁, s₁⟩ ∧
    s.commons.store.TreatsEach s₁ s'.commons.store t (es.filterMap (Event.planeCall? k)) tally

namespace CyclesAlone

variable {template : String} {rest : Program (Except MonitorError CycleOutcome)}
  {moves : List Move}

/-- A cycle that is left to itself is not told to stop. -/
theorem not_stops (h : s.CyclesAlone es s' k template rest)
    (hmoves : AreMoves s s' es k (.cycle template) moves rest) :
    ∀ move ∈ moves, ¬ move.Stops := by
  rintro ⟨c, answer, before, after⟩ hmove hstops
  cases c with
  | cancelled =>
    obtain rfl : answer = true := hstops
    have hstop := h.unstopped _ (hmoves.event_mem hmove)
    simp [Event.isStop, Move.event] at hstop
  | _ => exact hstops

/-- A cycle that is left to itself and returns has gone its round. -/
theorem treatsEach {result : Except MonitorError CycleOutcome}
    (h : s.CyclesAlone es s' k template (.done result)) (hs : s.Reachable)
    (hmoves : AreMoves s s' es k (.cycle template) moves (.done result)) :
    ∃ t tally, StartsAt k template t es ∧ result = .ok (.completed tally) ∧
      s.TreatsEach es s' k template t tally := by
  have hrow : Chained s.commons.store moves s'.commons.store := hmoves.chained h.alone
  obtain ⟨_, he, a, rfl⟩ := h.locked
  have htaken := (hmoves.event_mem_iff.1 he).2
  obtain ⟨t, round, last, s₁, xs, ys, hall, hlast, hround, rfl⟩ :=
    Service.cycle_plays hmoves.leads.plays hrow htaken hs.isProper.ids hs.isWellFormed
      (hmoves.spares h.history hs.runs_issued) (h.not_stops hmoves)
  obtain ⟨later, hopens⟩ := hround.opens
  have hcalls : es.filterMap (Event.planeCall? k) = planeMoves round := by
    rw [hmoves.planeCalls, hall, planeMoves_cons_none rfl, planeMoves_append, hlast,
      List.append_nil]
  have hasks : ⟨.store .inFlight, .ok s₁.inFlight, s₁, s₁⟩ ∈ moves := by
    rw [hall]
    exact .tail _ (List.mem_append_left _ hround.asks)
  refine ⟨t, _, ?_, rfl, s₁, _, hmoves.comes _ hasks, hcalls ▸ hround.treats hs.isProper⟩
  refine ⟨(later ++ last).map (·.event k (.cycle template)), ?_⟩
  rw [hmoves.events, hall, hopens]
  rfl

/-- A cycle that is left to itself and halts has had to plan for a monitor whose plan leaves the
calendar. -/
theorem exists_plan_none (h : s.CyclesAlone es s' k template .halt)
    (hmoves : AreMoves s s' es k (.cycle template) moves .halt) :
    ∃ t, StartsAt k template t es ∧ ∃ m ∈ s.commons.store.monitors, m.isDue t = true ∧
      Plan.make m.nextRun m.interval t = .ok none := by
  have hrow : Chained s.commons.store moves s'.commons.store := hmoves.chained h.alone
  obtain ⟨t, later, hall, hnone⟩ := Service.cycle_halts hmoves.leads hrow
  refine ⟨t, ⟨later.map (·.event k (.cycle template)), ?_⟩, hnone⟩
  rw [hmoves.events, hall]
  rfl

end CyclesAlone

/-- What is read off the clock is ordinary, if nothing out of the ordinary has happened. -/
theorem History.isOrdinary_of_now (h : s₀.History es s) (hnew : s₀.IsNew)
    (hclock : s₀.commons.clock.IsOrdinary) (hes : ∀ e ∈ es, e.IsOrdinary) {a : Activity}
    {t : Timestamp} (he : .call k a .now t ∈ es) : t.IsOrdinary := by
  obtain ⟨es₁, es₂, rfl⟩ := List.append_of_mem he
  obtain ⟨s₁, s₂, hbefore, hstep, -⟩ := h.split_cons
  have ht : t = s₁.commons.clock := by
    cases hstep with
    | call _ hw => exact hw.1
  obtain ⟨hshown, -⟩ := hbefore.isOrdinary hnew hclock fun e he =>
    hes e (List.mem_append_left _ he)
  exact ht ▸ hshown

/-- If nothing out of the ordinary happens, the plan for a monitor that is due when the clock is
read does not leave the calendar. -/
theorem History.plan_ne_none (hnew : s₀.IsNew) (h₀ : s₀.History es₀ s) (h : s.History es s')
    {a : Activity} {t : Timestamp} (hread : .call k a .now t ∈ es)
    (hclock : s₀.commons.clock.IsOrdinary) (hes : ∀ e ∈ es₀ ++ es, e.IsOrdinary) {m : Monitor}
    (hm : m ∈ s.commons.store.monitors) (hdue : m.isDue t = true) :
    Plan.make m.nextRun m.interval t ≠ .ok none := by
  have ht : t.IsOrdinary := (h₀.append h).isOrdinary_of_now hnew hclock hes
    (List.mem_append_right _ hread)
  obtain ⟨-, hordinary⟩ := h₀.isOrdinary hnew hclock fun e he => hes e (List.mem_append_left _ he)
  have hwell : m.IsWellFormed := Reachable.isWellFormed ⟨s₀, es₀, hnew, h₀⟩ m hm
  obtain ⟨plan, hplan⟩ := (hordinary m hm).exists_make hwell ht hdue
  rw [hplan]
  nofun

/-- After every history that begins with an empty store, a cycle that gets the lock, is not told to
stop and is left to itself completes and treats each monitor by itself, whatever the clock shows and
the workflow plane answers. All that can keep it from that is a plan that leaves the calendar, and
none does if nothing out of the ordinary has happened. -/
theorem cycle_treats_each (hnew : s₀.IsNew) (h₀ : s₀.History es₀ s) {template : String}
    {rest : Program (Except MonitorError CycleOutcome)}
    (h : s.CyclesAlone es s' k template rest) :
    (∃ t, StartsAt k template t es ∧
      ((∃ tally, rest = .done (.ok (.completed tally)) ∧
          s.TreatsEach es s' k template t tally) ∨
        (rest = .halt ∧ ∃ m ∈ s.commons.store.monitors, m.isDue t = true ∧
          Plan.make m.nextRun m.interval t = .ok none))) ∧
      (s₀.commons.clock.IsOrdinary → (∀ e ∈ es₀ ++ es, e.IsOrdinary) → rest ≠ .halt) := by
  cases rest with
  | call =>
    rcases h.ended with hover | ⟨result, hover⟩
    · cases hover
    · cases hover
  | halt =>
    obtain ⟨moves, hmoves⟩ := h.history.exists_moves h.begun h.task
    obtain ⟨t, hstarts, m, hm, hdue, hnone⟩ := h.exists_plan_none hmoves
    refine ⟨⟨t, hstarts, .inr ⟨rfl, m, hm, hdue, hnone⟩⟩, fun hclock hes _ => ?_⟩
    exact h₀.plan_ne_none hnew h.history hstarts.now_mem hclock hes hm hdue hnone
  | done result =>
    obtain ⟨moves, hmoves⟩ := h.history.exists_moves h.begun h.task
    obtain ⟨t, tally, hstarts, rfl, htreats⟩ := h.treatsEach ⟨s₀, es₀, hnew, h₀⟩ hmoves
    exact ⟨⟨t, hstarts, .inl ⟨tally, rfl, htreats⟩⟩, fun _ _ => nofun⟩

/-- A report on a job that is running. -/
def underWay : Json :=
  .object [("status", .object [("conditions", .array [.object [
    ("type", .string "WorkflowCompleted"), ("status", .string "False"),
    ("reason", .string "WorkflowRunning")]])])]

/-- Surroundings that take no job of a monitor with the name, and report on all others that they are
running. -/
def declining (name : String) : Surroundings where
  id := Surroundings.accepting.id
  cancelled := false
  plane
    | .submit spec =>
      if spec.parameters.monitorName = name then .error Surroundings.rejection
      else .ok (.run spec.space spec.name)
    | .resource _ => .ok underWay
    | c => Surroundings.accepting.plane c

/-- Three monitors are created, of which one is stopped and another belongs to somebody else. -/
def assortment : List Turn :=
  Turn.alone (.create "evaluation" "acme" (.tone "tone" none)) 0 6 ++
    Turn.alone (.create "evaluation" "acme" (.tone "quiet" none)) 1 6 ++
    Turn.alone (.stop "acme" "quiet") 2 4 ++ [.clock ⟨7201, 0⟩] ++
    Turn.alone (.create "evaluation" "globex" (.tone "care" none)) 3 6

end Site

/-- The template of a cycle that has completed, and what it has counted. -/
def Task.completed? : Task → Option (String × Tally)
  | ⟨.cycle template, .done (.ok (.completed tally))⟩ => some (template, tally)
  | _ => none

theorem Task.eq_of_completed? {task : Task} {template : String} {tally : Tally}
    (h : task.completed? = some (template, tally)) :
    task = ⟨.cycle template, .done (.ok (.completed tally))⟩ := by
  unfold completed? at h
  split at h
  · cases h
    rfl
  · cases h

namespace Site

/-- Of a cycle that finds two of three monitors due, of which the job of one is not accepted. -/
theorem cycle_treats_each_oneDeclined :
    let s₀ := holding [] ⟨7200, 0⟩
    let first := s₀.after (declining "care") assortment
    let second := first.2.after (declining "care") (Turn.alone (.cycle "evaluation") 4 23)
    s₀.IsNew ∧ s₀.History first.1 first.2 ∧
      first.2.CyclesAlone second.1 second.2 4 "evaluation" (.done (.ok (.completed ⟨1, 1, 1⟩))) ∧
      (∃ t, StartsAt 4 "evaluation" t second.1 ∧
        first.2.TreatsEach second.1 second.2 4 "evaluation" t ⟨1, 1, 1⟩) ∧
      s₀.commons.clock.IsOrdinary ∧ ∀ e ∈ first.1 ++ second.1, e.IsOrdinary := by
  intro s₀ first second
  have hnew : s₀.IsNew := ⟨rfl, rfl, rfl⟩
  have hfirst : s₀.History first.1 first.2 := history_after (by decide +kernel)
  have hsecond : first.2.History second.1 second.2 := history_after (by decide +kernel)
  have hcompleted : second.2.tasks[4]?.bind Task.completed? = some ("evaluation", ⟨1, 1, 1⟩) := by
    decide +kernel
  obtain ⟨task, htask, hcompleted⟩ := Option.bind_eq_some_iff.1 hcompleted
  rw [Task.eq_of_completed? hcompleted] at htask
  have hcycles : first.2.CyclesAlone second.1 second.2 4 "evaluation"
      (.done (.ok (.completed ⟨1, 1, 1⟩))) :=
    ⟨hsecond, by decide +kernel, htask, .inr ⟨_, rfl⟩, by decide +kernel, by decide +kernel,
      by decide +kernel⟩
  obtain ⟨⟨t, hstarts, hout⟩, -⟩ := cycle_treats_each hnew hfirst hcycles
  have htreats : first.2.TreatsEach second.1 second.2 4 "evaluation" t ⟨1, 1, 1⟩ := by
    obtain ⟨tally, heq, htreats⟩ | ⟨hhalt, -⟩ := hout
    · cases heq
      exact htreats
    · cases hhalt
  exact ⟨hnew, hfirst, hcycles, ⟨t, hstarts, htreats⟩, by decide, by decide +kernel⟩

end Site

end TraceWatch
