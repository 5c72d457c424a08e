import TraceWatch.Proofs.Cycle.Alone

/-!
# A cycle that follows a cycle

A cycle that comes through without a failure leaves nothing to do at the instant at which it has
started: each monitor that was due then is due later (`IsRound.dueMonitors_eq_nil`), and each run
that is still unfinished has the status that the workflow plane has reported
(`IsRound.exists_inquiry`). The lock is free again when it returns. So another cycle that starts at
the same instant, and to which the workflow plane reports the same, has nothing to submit and leaves
the store as it is: `Site.next_cycle_is_idle`.
-/

namespace TraceWatch

open Program

/-! ## What a round leaves to be done -/

namespace IsRound

variable {template : String} {t : Timestamp} {moves : List Move} {s s₁ s' : Store}
  {xs : List Attempt} {ys : List Inquiry}

/-- After a round in which no attempt has failed, no monitor is due at its instant. -/
theorem dueMonitors_eq_nil (h : IsRound template t moves s s₁ s' xs ys)
    (hids : (s.monitors.map Monitor.id).Nodup) (hwell : ∀ m ∈ s.monitors, m.IsWellFormed)
    (hall : ∀ x ∈ xs, x.succeeds = true) : s'.dueMonitors t = [] := by
  refine List.eq_nil_iff_forall_not_mem.2 fun m' hm' => ?_
  obtain ⟨hstored, hdue⟩ := Store.mem_dueMonitors.1 hm'
  rw [h.eq_last] at hstored
  obtain ⟨m, hm, rfl⟩ := List.mem_map.1 hstored
  cases hwas : m.isDue t with
  | false =>
    rw [Attempt.moveAll_of_ne (h.ne_of_not_due hids hm hwas)] at hdue
    cases hwas.symm.trans hdue
  | true =>
    obtain ⟨x, hx, rfl⟩ := h.exists_attempt hm hwas
    rw [Attempt.moveAll_of_mem (h.apart hids) hx, Attempt.move, if_pos ⟨hall x hx, rfl⟩,
      Monitor.isDue, Bool.and_eq_true] at hdue
    have hle : x.plan.nextRun ≤ t := of_decide_eq_true hdue.2
    -- the attempt has moved the monitor to an instant that is still to come
    obtain ⟨⟨i, hi, hlong⟩, -⟩ := (hwell _ hm).future (Monitor.isFuture_iff.1 hdue.1)
    have hplan := h.planned x hx
    rw [hi] at hplan
    have hlt := Plan.lt_make_nextRun hlong hplan
    rw [Timestamp.lt_def] at hlt
    rw [Timestamp.le_def] at hle
    omega

/-- After a round each run in flight has the status that the answer about its job gives it. -/
theorem exists_inquiry (h : IsRound template t moves s s₁ s' xs ys)
    (hruns : (s.runs.map Run.id).Nodup) {entry : InFlightRun} (hentry : entry ∈ s'.inFlight) :
    ∃ y ∈ ys, entry.org = y.entry.org ∧ entry.run.jobName = y.entry.run.jobName ∧
      entry.run.status = y.seen := by
  obtain ⟨r', org⟩ := entry
  obtain ⟨hstored, hopen, m, hfound, rfl⟩ := Store.mem_inFlight.1 hentry
  have hlast : s' = ⟨s₁.monitors, s₁.runs.map (Inquiry.settleAll ys)⟩ := by
    rw [h.settled, Inquiry.foldl_perform]
  rw [hlast] at hstored
  obtain ⟨r, hr, rfl⟩ := List.mem_map.1 hstored
  have hown : s₁.findMonitor r.monitorId = some m := by
    rwa [hlast, Inquiry.settleAll_monitorId] at hfound
  cases hwas : r.status.isTerminal with
  | false =>
    have hasked : ⟨r, m.org⟩ ∈ s₁.inFlight := Store.mem_inFlight.2 ⟨hr, hwas, m, hown, rfl⟩
    rw [← h.entries] at hasked
    obtain ⟨y, hy, hyentry⟩ := List.mem_map.1 hasked
    obtain rfl : y.entry.run = r := congrArg InFlightRun.run hyentry
    refine ⟨y, hy, (congrArg InFlightRun.org hyentry).symm,
      congrArg RunOrigin.jobName Inquiry.settleAll_origin, ?_⟩
    rw [Inquiry.settleAll_of_mem (h.asked_apart hruns) hy, Inquiry.settle_status]
  | true =>
    -- a run that has ended is not asked about, so it has not changed
    have hother : ∀ y ∈ ys, y.entry.run.id ≠ r.id := by
      intro y hy heq
      obtain ⟨hyr, hyopen, -⟩ := Store.mem_inFlight.1 (h.entries ▸ List.mem_map_of_mem hy)
      rw [List.inj_on_of_nodup_map (h.nodup_runIds hruns) hyr hr heq] at hyopen
      cases hwas.symm.trans hyopen
    rw [Inquiry.settleAll_of_ne hother] at hopen
    cases hwas.symm.trans hopen

end IsRound

/-! ## A cycle that has nothing to do -/

/-- None of the calls brings news about the status of any of the runs. -/
def BringsNoNews (calls : List Move.OfPlane) (entries : List InFlightRun) : Prop :=
  ∀ entry ∈ entries, ∀ reply, ⟨.resource (.run entry.org entry.run.jobName), reply⟩ ∈ calls →
    entry.run.status.after reply = entry.run.status

/-- The calls do no more than ask how jobs are getting on. -/
def OnlyAsks (calls : List Move.OfPlane) : Prop := ∀ call ∈ calls, ∃ job, call.1 = .resource job

namespace Service

variable {template : String} {s s' : Store} {moves : List Move}

/-- Reconciliations that bring no news change and count nothing, whether they are stopped or
not. -/
theorem reconcileAll_idle {entries : List InFlightRun} {tally tally' : Tally}
    (h : Plays (reconcileAll entries tally) moves tally') (hrow : Chained s moves s')
    (hstored : ∀ entry ∈ entries, s.HasRun entry.run.id)
    (hsame : BringsNoNews (planeMoves moves) entries) :
    s' = s ∧ tally' = tally ∧ OnlyAsks (planeMoves moves) := by
  obtain ⟨asked, xs, hasked, -, hxs, rfl⟩ := reconcileAll_plays h hrow hstored
  have hidle : ∀ x ∈ xs, x.changes = false := by
    intro x hx
    have hentry : x.entry ∈ entries := hasked.subset (hxs.entries ▸ List.mem_map_of_mem hx)
    have hreply : x.exchange ∈ planeMoves moves := hxs.exchanges ▸ List.mem_map_of_mem hx
    exact decide_eq_false (not_not_intro (hsame x.entry hentry x.reply hreply).symm)
  refine ⟨?_, ?_, fun call hcall => ?_⟩
  · rw [hxs.result]
    refine List.foldlRecOn (motive := (· = s)) xs _ rfl fun s₁ hs₁ x hx => ?_
    rw [Inquiry.perform_of_same (hidle x hx), hs₁]
  · rw [Inquiry.foldl_count, List.countP_eq_zero.2 fun x hx => by rw [hidle x hx]; exact nofun]
    rfl
  · rw [hxs.exchanges] at hcall
    obtain ⟨x, -, rfl⟩ := List.mem_map.1 hcall
    exact ⟨_, rfl⟩

/-- The work of a cycle begins with a look at the clock. If no monitor is due at that instant and
the workflow plane has no news about the runs in flight, nothing is submitted and the store is left
as it is. -/
theorem lockedCycle_idle {result : Except MonitorError Tally}
    (h : Plays (lockedCycle template).run moves result) (hrow : Chained s moves s') :
    ∃ t rest, moves = ⟨.now, t, s, s⟩ :: rest ∧
      (s.dueMonitors t = [] → BringsNoNews (planeMoves moves) s.inFlight →
        s' = s ∧ result = .ok ⟨0, 0, 0⟩ ∧ OnlyAsks (planeMoves moves)) := by
  rw [lockedCycle_run] at h
  obtain ⟨t, rest, rfl, h, hrow₁⟩ := h.of_idle_row hrow (by simp)
  refine ⟨t, rest, rfl, fun hdue hsame => ?_⟩
  obtain ⟨clock, rest, rfl, h, hrow₂⟩ := h.of_store_row hrow₁
  simp only [StoreCall.perform, hdue, triggerAll] at h hrow₂
  obtain ⟨clock', rest, rfl, h, hrow₃⟩ := h.of_store_row hrow₂
  obtain ⟨first, last, tally, rfl, hfirst, h⟩ := h.of_bind
  obtain ⟨rfl, rfl⟩ := h.of_done
  rw [List.append_nil] at hrow₃ hsame ⊢
  iterate 3 rw [planeMoves_cons_none rfl] at hsame ⊢
  have hstored : ∀ entry ∈ s.inFlight, s.HasRun entry.run.id := fun entry hentry =>
    ⟨entry.run, (Store.mem_inFlight.1 hentry).1, rfl⟩
  obtain ⟨rfl, rfl, hasks⟩ := reconcileAll_idle hfirst hrow₃ hstored hsame
  exact ⟨rfl, rfl, hasks⟩

/-- A cycle that gets the lock and comes through looks at the clock next. If no monitor is due at
that instant and the workflow plane has no news about the runs in flight, it submits nothing, leaves
the store as it is and has counted nothing. -/
theorem cycle_idle {result : Except MonitorError CycleOutcome}
    (h : Plays (cycle template).run moves result) (hrow : Chained s moves s')
    (htaken : ∃ before after, ⟨.acquireLock, .ok true, before, after⟩ ∈ moves) :
    ∃ t rest, moves = ⟨.acquireLock, .ok true, s, s⟩ :: ⟨.now, t, s, s⟩ :: rest ∧
      (s.dueMonitors t = [] → BringsNoNews (planeMoves moves) s.inFlight →
        s' = s ∧ result = .ok (.completed ⟨0, 0, 0⟩) ∧ OnlyAsks (planeMoves moves)) := by
  obtain ⟨round, last, out, rfl, hlast, hround, hrow₁, rfl⟩ := cycle_underLock h hrow htaken
  have hplane : planeMoves (⟨.acquireLock, .ok true, s, s⟩ :: (round ++ last)) =
      planeMoves round := by
    rw [planeMoves_cons_none rfl, planeMoves_append, hlast, List.append_nil]
  obtain ⟨t, rest, hopens, hidle⟩ := lockedCycle_idle hround hrow₁
  refine ⟨t, rest ++ last, by rw [hopens]; rfl, ?_⟩
  rw [hplane]
  intro hdue hsame
  obtain ⟨hstore, rfl, hasks⟩ := hidle hdue hsame
  exact ⟨hstore, rfl, hasks⟩

/-- A cycle that completes has got the lock. -/
theorem takes_of_completed {tally : Tally}
    (h : Plays (cycle template).run moves (.ok (.completed tally))) :
    ∃ before after, ⟨.acquireLock, .ok true, before, after⟩ ∈ moves := by
  rw [cycle_closes] at h
  obtain ⟨taken, before, after, rest, rfl, -, h⟩ := h.of_call
  rcases taken with e | _ | _
  · cases h.of_done.2
  · obtain ⟨_, _, _, _, rfl, -, h⟩ := h.of_call
    cases h.of_done.2
  · exact ⟨before, after, .head _⟩

end Service

/-! ## The lock between two cycles -/

/-- The instant that the task reads off the clock with the event. -/
def Event.reading? (k : Nat) : Event → Option Timestamp
  | call i _ .now t => if i = k then some t else none
  | _ => none

/-- The instant that is read off the clock with the move. -/
def Move.reading? : Move → Option Timestamp
  | ⟨.now, t, _, _⟩ => some t
  | _ => none

/-- The instant that the task reads off the clock first. -/
def firstReading? (k : Nat) (es : List Event) : Option Timestamp := es.findSome? (Event.reading? k)

namespace Site

variable {s s' s'' : Site} {es es' : List Event} {k k' : Nat}

/-- In the history the activity begins, as the task with this number, and is carried to its end,
with the rest; nobody else makes a call. -/
structure CarriesOut (s : Site) (es : List Event) (s' : Site) (k : Nat) (a : Activity)
    (rest : Program (Except MonitorError a.Result)) : Prop where
  history : s.History es s'
  begun : s.tasks.length ≤ k
  task : s'.tasks[k]? = some ⟨a, rest⟩
  ended : (⟨a, rest⟩ : Task).IsOver
  alone : ∀ e ∈ es, ∀ i ∈ e.caller, i = k

/-- While one task makes all the calls, nobody else comes by the lock, and nobody else has it if it
was free or has been taken by the task. -/
theorem History.holder_eq (h : s.History es s') (halone : ∀ e ∈ es, ∀ i ∈ e.caller, i = k)
    (hfree : s.commons.holder = none ∨ ∃ e ∈ es, e.Takes k) :
    ∀ j, s'.commons.holder = some j → j = k := by
  induction h with
  | nil =>
    intro j hj
    rcases hfree with hfree | ⟨e, he, -⟩
    · cases hfree.symm.trans hj
    · cases he
  | @snoc es e s₁ s₂ hbefore hstep ih =>
    have halone' : ∀ e ∈ es, ∀ i ∈ e.caller, i = k := fun e he =>
      halone e (List.mem_append_left _ he)
    -- unless the task takes the lock just now, things were so before
    have earlier (htakes : ¬ e.Takes k) : ∀ j, s₁.commons.holder = some j → j = k := by
      refine ih halone' (hfree.imp_right ?_)
      rintro ⟨e', he', htakes'⟩
      rcases List.mem_append.1 he' with he' | he'
      · exact ⟨e', he', htakes'⟩
      · exact absurd (List.mem_singleton.1 he' ▸ htakes') htakes
    cases hstep with
    | tick => exact earlier (by rintro ⟨_, heq⟩; cases heq)
    | begins => exact earlier (by rintro ⟨_, heq⟩; cases heq)
    | drops =>
      intro j hj
      exact earlier (by rintro ⟨_, heq⟩; cases heq) j (Commons.holder_freeLock.1 hj).1
    | @call w w' tasks i a c next answer hold hw =>
      obtain rfl : i = k := halone _ (List.mem_append_right _ (.head _)) i rfl
      intro j hj
      by_cases hcall : c = .acquireLock
      · subst hcall
        rcases hw with ⟨-, -, rfl⟩ | ⟨-, rfl, rfl⟩
        · exact (Option.some.inj hj).symm
        · exact earlier (by rintro ⟨_, heq⟩; cases heq) j hj
      · have htakes : ¬ (Event.call i a c answer).Takes i := by
          rintro ⟨_, heq⟩
          cases heq
          exact hcall rfl
        by_cases hfreed : c = .releaseLock
        · subst hfreed
          rw [hw.2] at hj
          exact earlier htakes j (Commons.holder_freeLock.1 hj).1
        · rw [hw.holder_eq hcall hfreed] at hj
          exact earlier htakes j hj

/-- Whatever has happened from a new site on keeps order. -/
theorem IsNew.keepsOrder {s₀ : Site} (hnew : s₀.IsNew) (h : s₀.History es s) :
    s.KeepsOrder es := by
  have hrough : s₀.RoughHistory ([] ++ es) s := RoughHistory.nil.append h
  exact hrough.keepsOrder ⟨hnew.tasks, hnew.holder⟩

/-- A reachable site is in order. -/
theorem Reachable.exists_keepsOrder (h : s.Reachable) : ∃ es, s.KeepsOrder es := by
  obtain ⟨s₀, es, hnew, hes⟩ := h
  exact ⟨es, hnew.keepsOrder hes⟩

namespace CarriesOut

variable {template : String} {rest : Program (Except MonitorError CycleOutcome)}

/-- A cycle that has got the lock and returns leaves it free. -/
theorem holder_eq_none {result : Except MonitorError CycleOutcome}
    (h : s.CarriesOut es s' k (.cycle template) (.done result)) (hs : s.Reachable)
    (htakes : ∃ e ∈ es, e.Takes k) : s'.commons.holder = none := by
  refine Option.eq_none_iff_forall_not_mem.2 fun j hj => ?_
  obtain rfl : j = k := h.history.holder_eq h.alone (.inr htakes) j hj
  obtain ⟨es', horder⟩ := (hs.history h.history).exists_keepsOrder
  exact (horder.stance j _ h.task).not_held rfl hj

/-- A cycle that begins while the lock is free, and has the service to itself, gets the lock. -/
theorem takes_of_free {moves : List Move} (h : s.CarriesOut es s' k (.cycle template) rest)
    (hs : s.Reachable) (hfree : s.commons.holder = none)
    (hmoves : AreMoves s s' es k (.cycle template) moves rest) :
    ∃ before after, ⟨.acquireLock, .ok true, before, after⟩ ∈ moves := by
  have hleads : Program.Leads (Service.cycle template).run moves rest := hmoves.leads
  rw [Service.cycle_closes] at hleads
  rcases hleads.of_call with ⟨-, rfl⟩ | ⟨taken, before, after, later, rfl, -, -⟩
  · rcases h.ended with hover | ⟨_, hover⟩ <;> cases hover
  · refine ⟨before, after, ?_⟩
    obtain ⟨es₁, s₁, s₂, es₂, rfl, hbefore, hstep, -⟩ := hmoves.comes _ (.head _)
    cases hstep with
    | @call w w' tasks _ _ _ next _ htask hw =>
      rcases hw with ⟨-, rfl, -⟩ | ⟨hheld, -⟩
      · exact .head _
      · obtain ⟨j, hj⟩ := Option.ne_none_iff_exists'.1 hheld
        -- nobody else has the lock, and a task that has it does not ask for it
        obtain rfl : j = k := hbefore.holder_eq
          (fun e he => h.alone e (List.mem_append_left _ he)) (.inl hfree) j hj
        obtain ⟨es', horder⟩ := (hs.history hbefore).exists_keepsOrder
        rcases ((horder.stance j _ htask).releases hj).2.of_call with ⟨heq, -⟩ | ⟨hspares, -⟩
        · cases heq
        · exact absurd rfl hspares.1

end CarriesOut

/-! ## The statement -/

/-- The instant that a task has read first is that of its first move of this kind. -/
theorem AreMoves.firstReading?_eq {a : Activity} {moves : List Move}
    {rest : Program (Except MonitorError a.Result)} (h : AreMoves s s' es k a moves rest) :
    firstReading? k es = moves.findSome? Move.reading? := by
  rw [firstReading?, ← List.head?_filterMap, ← List.head?_filterMap]
  refine congrArg _ (h.filterMap_eq (fun e he => ?_) fun move => ?_)
  · cases e with
    | call i a c => cases c <;> simp_all [Event.caller, Event.reading?]
    | _ => rfl
  · obtain ⟨c, answer, before, after⟩ := move
    cases c <;> simp [Event.reading?, Move.event, Move.reading?]

/-- A call of the workflow plane among the moves of a task is an event. -/
theorem AreMoves.planeCall_mem {a : Activity} {moves : List Move}
    {rest : Program (Except MonitorError a.Result)} (h : AreMoves s s' es k a moves rest)
    {c : PlaneCall} {answer : Except PlaneError c.Answer} (hmem : ⟨c, answer⟩ ∈ planeMoves moves) :
    .call k a (.plane c) answer ∈ es := by
  obtain ⟨⟨d, answer', before, after⟩, hmove, heq⟩ := List.mem_filterMap.1 hmem
  cases d <;> cases heq
  exact h.event_mem hmove

/-- A cycle that is not told to stop, is left to itself and completes without a failure has gone its
round at the instant that it has read first, and no monitor is due any more then. -/
theorem CarriesOut.exists_round {template : String} {n m : Nat} (hs : s.Reachable)
    (h : s.CarriesOut es s' k (.cycle template) (.done (.ok (.completed ⟨n, 0, m⟩))))
    (hgoes : ∀ e ∈ es, e.isStop k = false) :
    ∃ t round s₁ xs ys, IsRound template t round s.commons.store s₁ s'.commons.store xs ys ∧
      firstReading? k es = some t ∧ s'.commons.store.dueMonitors t = [] ∧
      (∃ e ∈ es, e.Takes k) ∧
      ∀ y ∈ ys, .call k (.cycle template) (.plane y.exchange.1) y.exchange.2 ∈ es := by
  obtain ⟨moves, hmoves⟩ := h.history.exists_moves h.begun h.task
  obtain ⟨before, after, htaken⟩ := Service.takes_of_completed hmoves.leads.plays
  have htakes : ∃ e ∈ es, e.Takes k := ⟨_, hmoves.event_mem htaken, _, rfl⟩
  have hcycles : s.CyclesAlone es s' k template (.done (.ok (.completed ⟨n, 0, m⟩))) :=
    ⟨h.history, h.begun, h.task, h.ended, htakes, hgoes, h.alone⟩
  obtain ⟨t, round, last, s₁, xs, ys, hall, hlast, hround, hresult⟩ :=
    Service.cycle_plays hmoves.leads.plays (hmoves.chained h.alone) ⟨before, after, htaken⟩
      hs.isProper.ids hs.isWellFormed (hmoves.spares h.history hs.runs_issued)
      (hcycles.not_stops hmoves)
  have hsucceeds : ∀ x ∈ xs, x.succeeds = true := by
    have hfailed : xs.countP (!·.succeeds) = 0 := by
      injection hresult with hresult
      injection hresult with hresult
      exact (congrArg Tally.failed hresult).symm
    simpa using List.countP_eq_zero.1 hfailed
  refine ⟨t, round, s₁, xs, ys, hround, ?_,
    hround.dueMonitors_eq_nil hs.isProper.ids hs.isWellFormed hsucceeds, htakes, fun y hy => ?_⟩
  · obtain ⟨later, hopens⟩ := hround.opens
    rw [hmoves.firstReading?_eq, hall, hopens]
    rfl
  · refine hmoves.planeCall_mem ?_
    rw [hall, planeMoves_cons_none rfl, planeMoves_append, hround.exchanges]
    exact List.mem_append_left _ (List.mem_append_right _ (List.mem_map_of_mem hy))

/-- The workflow plane reports the same to both tasks on every job. -/
def ReportsSame (es : List Event) (k : Nat) (es' : List Event) (k' : Nat) : Prop :=
  ∀ job a a' reply reply', .call k a (.plane (.resource job)) reply ∈ es →
    .call k' a' (.plane (.resource job)) reply' ∈ es' → reply' = reply

/-- After a cycle that is not told to stop, is left to itself and completes without a failure, the
next cycle that is left to itself and reads the same instant off the clock completes as well and has
counted nothing, whoever carries it out, if the workflow plane reports the same on every job. It
submits nothing and leaves the store as it is. -/
theorem next_cycle_is_idle (hs : s.Reachable) {template template' : String} {n m : Nat}
    {rest : Program (Except MonitorError CycleOutcome)}
    (h : s.CarriesOut es s' k (.cycle template) (.done (.ok (.completed ⟨n, 0, m⟩))))
    (hgoes : ∀ e ∈ es, e.isStop k = false)
    (h' : s'.CarriesOut es' s'' k' (.cycle template') rest)
    (hclock : ∀ t ∈ firstReading? k es, ∀ t' ∈ firstReading? k' es', t' = t)
    (hplane : ReportsSame es k es' k') :
    rest = .done (.ok (.completed ⟨0, 0, 0⟩)) ∧ s''.commons.store = s'.commons.store ∧
      ∀ i a spec answer, .call i a (.plane (.submit spec)) answer ∉ es' := by
  obtain ⟨t, round, s₁, xs, ys, hround, hfirst, hdue, htakes, hasked⟩ := h.exists_round hs hgoes
  -- the second cycle gets the lock, and hears no news
  obtain ⟨moves', hmoves'⟩ := h'.history.exists_moves h'.begun h'.task
  have htaken' := h'.takes_of_free (hs.history h.history) (h.holder_eq_none hs htakes) hmoves'
  have hrow' := hmoves'.chained h'.alone
  have hsame : BringsNoNews (planeMoves moves') s'.commons.store.inFlight := by
    intro entry hentry reply hreply
    obtain ⟨y, hy, horg, hjob, hstatus⟩ := hround.exists_inquiry hs.isProper.runIds hentry
    rw [horg, hjob] at hreply
    rw [hplane _ _ _ _ _ (hasked y hy) (hmoves'.planeCall_mem hreply), hstatus]
    exact RunStatus.after_after _ _
  cases rest with
  | call => rcases h'.ended with hover | ⟨_, hover⟩ <;> cases hover
  | halt =>
    obtain ⟨t', later, rfl, u, hu, hisDue, -⟩ := Service.cycle_halts hmoves'.leads hrow'
    obtain rfl : t' = t := hclock t hfirst t' hmoves'.firstReading?_eq
    have hmem := Store.mem_dueMonitors.2 ⟨hu, hisDue⟩
    rw [hdue] at hmem
    cases hmem
  | done result =>
    obtain ⟨t', later, rfl, hidle⟩ := Service.cycle_idle hmoves'.leads.plays hrow' htaken'
    obtain rfl : t' = t := hclock t hfirst t' hmoves'.firstReading?_eq
    obtain ⟨hstore, rfl, hasks⟩ := hidle hdue hsame
    refine ⟨rfl, hstore, fun i a spec answer hmem => ?_⟩
    obtain rfl : i = k' := h'.alone _ hmem i rfl
    obtain ⟨job, hjob⟩ := hasks ⟨.submit spec, answer⟩ (by
      rw [← hmoves'.planeCalls]
      exact List.mem_filterMap.2 ⟨_, hmem, if_pos rfl⟩)
    cases hjob

/-- A task that has completed is a cycle that has returned so. -/
theorem task_of_completed? {template : String} {tally : Tally}
    (h : s.tasks[k]?.bind Task.completed? = some (template, tally)) :
    s.tasks[k]? = some ⟨.cycle template, .done (.ok (.completed tally))⟩ := by
  obtain ⟨task, htask, hcompleted⟩ := Option.bind_eq_some_iff.1 h
  rwa [Task.eq_of_completed? hcompleted] at htask

/-- Two monitors are created, of which one is stopped. -/
def pair : List Turn :=
  Turn.alone (.create "evaluation" "acme" (.tone "tone" none)) 0 6 ++
    Turn.alone (.create "evaluation" "acme" (.tone "quiet" none)) 1 6 ++
    Turn.alone (.stop "acme" "quiet") 2 4

/-- Of a cycle that submits a job and finds it running, and another one at the same instant, by a
scheduler with another template. -/
theorem next_cycle_is_idle_running :
    let world := reporting underWay
    let s := ((holding [] ⟨7200, 500⟩).after world pair).2
    let first := s.after world (Turn.alone (.cycle "evaluation") 3 19)
    let second := first.2.after world (Turn.alone (.cycle "nightly") 4 8)
    s.Reachable ∧
      s.CarriesOut first.1 first.2 3 (.cycle "evaluation") (.done (.ok (.completed ⟨1, 0, 1⟩))) ∧
      (∀ e ∈ first.1, e.isStop 3 = false) ∧
      first.2.CarriesOut second.1 second.2 4 (.cycle "nightly")
        (.done (.ok (.completed ⟨0, 0, 0⟩))) ∧
      (∀ t ∈ firstReading? 3 first.1, ∀ t' ∈ firstReading? 4 second.1, t' = t) ∧
      ReportsSame first.1 3 second.1 4 ∧
      second.2.commons.store = first.2.commons.store ∧
      ∀ i a spec answer, .call i a (.plane (.submit spec)) answer ∉ second.1 := by
  intro world s first second
  have hs : s.Reachable := reachable_after (by decide +kernel)
  have hfirst : s.History first.1 first.2 := history_after (by decide +kernel)
  have hsecond : first.2.History second.1 second.2 := history_after (by decide +kernel)
  have h : s.CarriesOut first.1 first.2 3 (.cycle "evaluation")
      (.done (.ok (.completed ⟨1, 0, 1⟩))) :=
    ⟨hfirst, by decide +kernel, task_of_completed? (by decide +kernel), .inr ⟨_, rfl⟩,
      by decide +kernel⟩
  have h' : first.2.CarriesOut second.1 second.2 4 (.cycle "nightly")
      (.done (.ok (.completed ⟨0, 0, 0⟩))) :=
    ⟨hsecond, by decide +kernel, task_of_completed? (by decide +kernel), .inr ⟨_, rfl⟩,
      by decide +kernel⟩
  have hgoes : ∀ e ∈ first.1, e.isStop 3 = false := by decide +kernel
  have hclock : ∀ t ∈ firstReading? 3 first.1, ∀ t' ∈ firstReading? 4 second.1, t' = t := by
    decide +kernel
  have hplane : ReportsSame first.1 3 second.1 4 := fun _ _ _ _ _ hreply hreply' =>
    (plane_of_after hreply').trans (plane_of_after hreply).symm
  obtain ⟨-, hstore, hnone⟩ := next_cycle_is_idle hs h hgoes h' hclock hplane
  exact ⟨hs, h, hgoes, h', hclock, hplane, hstore, hnone⟩

end Site

end TraceWatch
