import TraceWatch.Proofs.Runs.InFlight
import TraceWatch.Proofs.Schedule.Recall

/-!
# How a run comes to its end

What is stored of a run changes in one way: a cycle under the lock stores what the workflow plane
has reported to it of the run's job, and only while the run is not over
(`Event.Reconciles`). Neither the store nor the rule by which a run takes over a report would keep a
run from being changed after its end; it is the list of unfinished runs that does, together with the
lock. The statement about sites is `Site.runs_settle`.
-/

namespace TraceWatch

/-! ## Messages -/

/-- A message that comes with a report is that of a failure. -/
theorem Report.message_eq_some {report : Json} {message : String}
    (h : Report.message report = some message) :
    message ≠ "" ∧ Report.runStatus report = .failed := by
  unfold Report.message at h
  split at h
  · next hfailed =>
    obtain rfl := Option.some.inj h
    exact ⟨hfailed.2, hfailed.1⟩
  · cases h

/-- If the run has a message, it is that of its failure. -/
def Run.ExplainsFailure (r : Run) : Prop :=
  ∀ message, r.errorMessage = some message → message ≠ "" ∧ r.status = .failed

/-! ## Reconciliation -/

/-- With the event the task, a cycle that holds the lock, stores how far a run has come that is not
over, and that is what the workflow plane has reported to it of the run's job. -/
structure Event.Reconciles (w : Commons) (es : List Event) (r r' : Run) (k : Nat)
    (template : String) (report : Json) (e : Event) : Prop where
  holds : w.holder = some k
  unfinished : r.status.isTerminal = false
  heard : ∃ m ∈ w.store.monitors, m.id = r.monitorId ∧ HasHeard k (.run m.org r.jobName) report es
  event : e = .call k (.cycle template)
    (.store (.updateStatus r.id (Report.runStatus report) (Report.message report))) (.ok ())
  result : r' = { r with
    status := Report.runStatus report
    errorMessage := Report.message report
    updatedAt := w.clock }

namespace Scene

variable {s s' : Scene} {e : Event} {es : List Event} {r r' : Run}

/-- A run that is still stored after a step is as it was, or a cycle has reconciled it. -/
theorem Reachable.reconciles (hs : s.Reachable) (hrecalls : ∀ i, (s.phase i).Recalls i es)
    (hstep : s.Step e s') (hr : r ∈ s.commons.store.runs) (hr' : r' ∈ s'.commons.store.runs)
    (heq : r'.id = r.id) :
    r' = r ∨ ∃ k template report, e.Reconciles s.commons es r r' k template report := by
  have hids := hs.tended.ids
  have hspent : s.Spent r'.id := heq ▸ hs.spent_of_run ⟨r, hr, rfl⟩
  obtain ⟨r₁, hr₁, rfl | ⟨k, a, status, message, answer, rfl, rfl⟩⟩ := hspent.exists_run hstep hr'
  · exact .inl (List.inj_on_of_nodup_map hids hr₁ hr heq)
  · obtain rfl : r₁ = r := List.inj_on_of_nodup_map hids hr₁ hr heq
    right
    cases hstep with
    | @call w w' g _ _ _ _ φ hpassage hw =>
      obtain ⟨template, entry, report, rest, rfl, hk, rfl, hid, rfl, rfl⟩ := hpassage.updateStatus
      -- the run that the cycle goes by is the stored one
      have hentry : entry ∈ (g k).entries := by rw [hk]; exact .head _
      have hbacks := hs.tended.backed k entry hentry
      obtain rfl : r₁ = entry.run := hbacks.stored r₁ hr hid
      have hlock : (g k).HoldsLock := Phase.holdsLock_of_entries hentry
      have hheard : HasHeard k (.run entry.org entry.run.jobName) report es := by
        refine (hrecalls k).heard (_, report) ?_
        dsimp only
        rw [hk]
        rfl
      -- and its organization is that of the stored monitor
      obtain ⟨m, hm, howner⟩ := hs.isConsistent.owned _ hr
      obtain ⟨m₀, hid₀, horg₀, hfixes⟩ := hbacks.owner
      have horigin : m.origin = m₀.origin :=
        hfixes.known m (.inl hm) (howner.trans hid₀.symm)
      have horg : m.org = entry.org := (Monitor.identity_eq horigin).2.1.trans horg₀
      have hanswer : answer = .ok () := hw.1.trans (StoreCall.updateStatus_answer hr _ _)
      refine ⟨k, template, report, hs.exclusive k hlock, hbacks.unfinished, ⟨m, hm, howner, ?_⟩,
        by rw [hanswer], rfl⟩
      rwa [horg]

/-- A run that is over is stored as it is for as long as it is stored. -/
theorem History.run_eq {w : Commons} {before : List Event} (hs : s.Reachable)
    (hbefore : (ofCommons w).History before s) (h : s.History es s')
    (hr : r ∈ s.commons.store.runs) (hover : r.status.isTerminal = true)
    (hr' : r' ∈ s'.commons.store.runs) (heq : r'.id = r.id) : r' = r := by
  induction h generalizing r' with
  | nil => exact List.inj_on_of_nodup_map hs.tended.ids hr' hr heq
  | @snoc es e s₁ s₂ hes hstep ih =>
    -- it was stored before the last step, and was as it is then
    have hspent : s₁.Spent r.id := (hs.spent_of_run ⟨r, hr, rfl⟩).history hes
    obtain ⟨r₁, hr₁, heq₁⟩ := hspent.hasRun_of_step hstep ⟨r', hr', heq⟩
    obtain rfl : r₁ = r := ih hr₁ heq₁
    have hrecalls := (hbefore.append hes).recalls
    rcases (hs.history hes).reconciles hrecalls hstep hr₁ hr' heq with hsame | ⟨_, _, _, hlast⟩
    · exact hsame
    · cases hover.symm.trans hlast.unfinished

/-- The messages of stored runs are those of their failures. -/
theorem Reachable.explainsFailure (hs : s.Reachable) :
    ∀ r ∈ s.commons.store.runs, r.ExplainsFailure := by
  refine hs.invariant (I := fun s => ∀ r ∈ s.commons.store.runs, r.ExplainsFailure)
    (fun w hstore _ r hr => ?_) fun {s e s'} _ ih hstep r' hr' => ?_
  · exact absurd (hstore ▸ hr) List.not_mem_nil
  · rcases hstep.call_or_rests with ⟨k, a, c, answer, rfl⟩ | ⟨-, hrests⟩
    · cases hstep with
      | @call w w' g _ _ _ _ φ hpassage hw =>
        rcases hw.mem_runs hr' with rfl | ⟨r, hr, rfl | ⟨d, rfl, hobserves⟩⟩
        · -- a run that has just been recorded has no message
          obtain ⟨_, x, id, job, now, -, rfl, -⟩ := hpassage.createRun
          intro message hmessage
          cases hmessage
        · exact ih r' hr
        · cases hobserves with
          | same => exact ih _ hr
          | status =>
            obtain ⟨_, _, report, _, -, -, -, -, rfl, rfl⟩ := hpassage.updateStatus
            intro message hmessage
            exact Report.message_eq_some hmessage
    · exact ih r' (hrests.store ▸ hr')

end Scene

/-! ## The statement -/

/-- How the runs of a site settle, after what has happened and in what may happen from now on. -/
structure Site.SettlesRuns (s : Site) (es : List Event) : Prop where
  /-- A stored message is not empty and belongs to a failed run. -/
  explained : ∀ r ∈ s.commons.store.runs, r.ExplainsFailure
  /-- What happens next changes a stored run only by the reconciliation of the cycle that holds the
  lock, to what the workflow plane has reported to it of the run's job. -/
  reconciled : ∀ e s', s.Step e s' → ∀ r ∈ s.commons.store.runs, ∀ r' ∈ s'.commons.store.runs,
    r'.id = r.id → r' = r ∨ ∃ k template report, e.Reconciles s.commons es r r' k template report
  /-- A run that has succeeded or failed does not change any more, whatever happens. -/
  final : ∀ es' s', s.History es' s' → ∀ r ∈ s.commons.store.runs,
    r.status = .succeeded ∨ r.status = .failed → ∀ r' ∈ s'.commons.store.runs, r'.id = r.id → r' = r

namespace Site

variable {s₀ s : Site} {es : List Event}

/-- At every moment of every history that begins with an empty store the runs settle: only cycles
under the lock change them, to what the workflow plane has reported, and not after their end. -/
theorem runs_settle (hnew : s₀.IsNew) (h : s₀.History es s) : s.SettlesRuns es := by
  obtain ⟨g, hg, hseen⟩ := h.exists_scene hnew.tasks
  have hreachable : g.Reachable := ⟨_, es, hnew.store, hnew.holder, hg⟩
  have hcommons : g.commons = s.commons := hseen.commons
  refine ⟨fun r hr => ?_, fun e s' hstep r hr r' hr' heq => ?_,
    fun es' s' hes' r hr hover r' hr' heq => ?_⟩
  · exact hreachable.explainsFailure r (hcommons ▸ hr)
  · obtain ⟨g', hstep', hseen'⟩ := hseen.step hstep
    rw [← hcommons] at hr ⊢
    exact hreachable.reconciles hg.recalls hstep' hr (hseen'.commons ▸ hr') heq
  · obtain ⟨g', hg', hseen'⟩ := hseen.history hes'
    have hterminal : r.status.isTerminal = true := by
      rcases hover with hover | hover <;> rw [hover] <;> rfl
    exact hg.run_eq hreachable hg' (hcommons ▸ hr) hterminal (hseen'.commons ▸ hr') heq

/-- A report on a job that has come to its end, with a reason and a message. -/
def finished (reason message : String) : Json :=
  .object [("status", .object [("conditions", .array [.object [
    ("type", .string "WorkflowCompleted"), ("status", .string "True"),
    ("reason", .string reason), ("message", .string message)]])])]

/-- Surroundings that accept every job and report this on each. -/
def reporting (report : Json) : Surroundings where
  id := Surroundings.accepting.id
  cancelled := false
  plane
    | .resource _ => .ok report
    | c => Surroundings.accepting.plane c

/-- A monitor is created, and a cycle submits a job for it and asks how it is getting on. -/
def submission : List Turn :=
  Turn.alone (.create "evaluation" "acme" (.tone "tone" none)) 0 6 ++
    Turn.alone (.cycle "evaluation") 1 19

/-- Of a run that is reported to have failed, and to have succeeded when it is too late. -/
theorem runs_settle_failedFirst :
    let s₀ := holding [] ⟨7200, 0⟩
    let s₁ := s₀.after (reporting (finished "WorkflowFailed" "out of memory")) submission
    let s₂ := s₁.2.after (reporting (finished "WorkflowSucceeded" ""))
      (Turn.alone (.cycle "evaluation") 2 6)
    s₀.IsNew ∧ s₁.2.SettlesRuns s₁.1 ∧ s₁.2.History s₂.1 s₂.2 ∧
      ∃ r ∈ s₁.2.commons.store.runs, r.status = .failed ∧
        r.errorMessage = some "WorkflowFailed: out of memory" ∧
        ∀ r' ∈ s₂.2.commons.store.runs, r'.id = r.id → r' = r := by
  intro s₀ s₁ s₂
  have hnew : s₀.IsNew := ⟨rfl, rfl, rfl⟩
  have hfirst : s₀.History s₁.1 s₁.2 := history_after (by decide +kernel)
  have hsecond : s₁.2.History s₂.1 s₂.2 := history_after (by decide +kernel)
  have hfailed : ∃ r ∈ s₁.2.commons.store.runs, r.status = .failed ∧
      r.errorMessage = some "WorkflowFailed: out of memory" := by decide +kernel
  have hsettles : s₁.2.SettlesRuns s₁.1 := runs_settle hnew hfirst
  obtain ⟨r, hr, hstatus, hmessage⟩ := hfailed
  exact ⟨hnew, hsettles, hsecond, r, hr, hstatus, hmessage,
    fun r' => hsettles.final s₂.1 s₂.2 hsecond r hr (.inr hstatus) r'⟩

end Site

end TraceWatch
