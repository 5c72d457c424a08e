import TraceWatch.Proofs.Program.Plays
import TraceWatch.Proofs.Schedule.Steady

/-!
# Scheduled windows meet

However many schedulers share a store and a lock, and however their cycles and the operations of
users are interleaved, the runs that the cycles record for a monitor cover trace time without a gap
and without an overlap, as long as nobody stops, starts or deletes the monitor or changes its
interval. The invariant is `Tiled`: whoever is under the lock works with the instant at which the
monitor is due, and that is an interval after the end of the last recorded window.
-/

namespace TraceWatch

open Timestamp

/-! ## Windows and when the next one is due -/

namespace Window

/-- The windows cover trace time from an instant on: each begins where the one before it ended, and
none is empty. -/
def Tile : Timestamp → List Window → Prop
  | _, [] => True
  | t, w :: rest => w.start = t ∧ w.start < w.stop ∧ Tile w.stop rest

/-- How far windows that begin at an instant reach. -/
def reach (t : Timestamp) (ws : List Window) : Timestamp := (ws.getLast?.map stop).getD t

@[simp] theorem reach_concat (t : Timestamp) (ws : List Window) (w : Window) :
    reach t (ws ++ [w]) = w.stop := by simp [reach]

theorem reach_cons (t : Timestamp) (w : Window) (rest : List Window) :
    reach t (w :: rest) = reach w.stop rest := by
  cases rest using List.reverseRecOn with
  | nil => rfl
  | append_singleton ws v => rw [← List.cons_append, reach_concat, reach_concat]

/-- A window that begins where the others end, and is not empty, carries on with them. -/
theorem Tile.concat {w : Window} : ∀ {t : Timestamp} {ws : List Window}, Tile t ws →
    w.start = reach t ws → w.start < w.stop → Tile t (ws ++ [w])
  | _, [], _, hstart, hlt => ⟨hstart, hlt, trivial⟩
  | _, v :: rest, ⟨hv, hvlt, hrest⟩, hstart, hlt =>
    ⟨hv, hvlt, hrest.concat (hstart.trans (reach_cons _ v rest)) hlt⟩

end Window

/-- The instant at which a monitor is due once these windows have been recorded, if it was due at
`t₀` before. -/
def nextDue (t₀ : Timestamp) (i : Int) (ws : List Window) : Timestamp :=
  match ws.getLast? with
  | none => t₀
  | some w => w.stop.move (minutes i)

@[simp] theorem nextDue_concat (t₀ : Timestamp) (i : Int) (ws : List Window) (w : Window) :
    nextDue t₀ i (ws ++ [w]) = w.stop.move (minutes i) := by simp [nextDue]

/-- The window of the run that an event records for a monitor, if a cycle has triggered it. -/
def Event.scheduled? (id : Uuid) : Event → Option Window
  | call _ (.cycle _) (.store (.createRun r)) (.ok _) =>
    if r.monitorId = id then some r.window else none
  | _ => none

/-- The windows of the runs that cycles have recorded for a monitor, in order. -/
def scheduledWindows (id : Uuid) (es : List Event) : List Window :=
  es.filterMap (Event.scheduled? id)

theorem scheduledWindows_concat (id : Uuid) (es : List Event) (e : Event) :
    scheduledWindows id (es ++ [e]) = scheduledWindows id es ++ (e.scheduled? id).toList := by
  rw [scheduledWindows, scheduledWindows, List.filterMap_append]
  cases h : e.scheduled? id <;> simp [h]

/-- What adds a window is a cycle that records a run of the monitor. -/
theorem Event.of_scheduled? {id : Uuid} {e : Event} (h : e.scheduled? id ≠ none) :
    ∃ k template r, e = call k (.cycle template) (.store (.createRun r)) (.ok ()) ∧
      r.monitorId = id := by
  unfold scheduled? at h
  split at h
  · split at h
    · next hid => exact ⟨_, _, _, rfl, hid⟩
    · exact absurd rfl h
  · exact absurd rfl h

/-- A cycle that records a run of a monitor adds its window. -/
theorem Event.scheduled?_record {id : Uuid} {k : Nat} {template : String} {r : Run}
    (h : r.monitorId = id) :
    (call k (.cycle template) (.store (.createRun r)) (.ok ())).scheduled? id = some r.window :=
  if_pos h

/-! ## What a cycle works with -/

/-- What is planned for a monitor that is due at `u`, with the given interval, by a cycle that read
the clock at `now`. -/
def Planned (u : Timestamp) (i : Int) (now : Timestamp) (w : Window) (next : Timestamp) : Prop :=
  u ≤ now ∧ Plan.make (some u) (some i) now = .ok (some ⟨w, next⟩)

/-- The cycle has a proper clock reading and comes to no monitor twice. What it has still to come to
of the given monitor shows the instant `u`. -/
structure Agreed (id : Uuid) (u now : Timestamp) (due : List Monitor) : Prop where
  proper : now.IsProper
  nodup : (due.map Monitor.id).Nodup
  shown : ∀ d ∈ due, d.id = id → d.nextRun = some u ∧ u ≤ now

namespace Agreed

variable {id : Uuid} {u now : Timestamp} {d : Monitor} {passed rest : List Monitor}

theorem of_append (h : Agreed id u now (passed ++ rest)) : Agreed id u now rest where
  proper := h.proper
  nodup := by
    have hnodup := h.nodup
    rw [List.map_append] at hnodup
    exact (List.nodup_append.1 hnodup).2.1
  shown := fun d hd => h.shown d (List.mem_append_right _ hd)

theorem tail (h : Agreed id u now (d :: rest)) : Agreed id u now rest :=
  of_append (show Agreed id u now ([d] ++ rest) from h)

/-- A cycle that has come to a monitor does not come to it again. -/
theorem ne_of_mem (h : Agreed id u now (d :: rest)) : ∀ d' ∈ rest, d'.id ≠ d.id := by
  intro d' hd' heq
  have hnodup := List.nodup_cons.1 h.nodup
  exact hnodup.1 (List.mem_map.2 ⟨d', hd', heq⟩)

/-- Of a monitor that it does not come to again, the cycle may show any instant. -/
theorem of_not_mem (h : Agreed id u now rest) (hrest : ∀ d ∈ rest, d.id ≠ id) (u' : Timestamp) :
    Agreed id u' now rest :=
  ⟨h.proper, h.nodup, fun d hd heq => absurd heq (hrest d hd)⟩

end Agreed

/-- Whoever is under the lock works with the instant at which the monitor is due: the monitors to
come show it, an execution for the monitor has the window planned from it, and after the record the
schedule is moved to it. -/
def Phase.Agrees (id : Uuid) (u : Timestamp) (i : Int) : Phase → Prop
  | timed now => now.IsProper
  | rounds now due => Agreed id u now due
  | advancing now rest d next => Agreed id u now rest ∧ (∀ d' ∈ rest, d'.id ≠ d.id) ∧
    (d.id = id → next = u)
  | submitting (.trigger now rest next) x _ | accepted (.trigger now rest next) x _ _
  | stamped (.trigger now rest next) x _ _ _ =>
    Agreed id u now rest ∧ (∀ d' ∈ rest, d'.id ≠ x.monitor.id) ∧
      (x.monitor.id = id → Planned u i now x.window next)
  | refused (.trigger now rest _) x _ _ => Agreed id u now rest ∧ ∀ d' ∈ rest, d'.id ≠ x.monitor.id
  | _ => True

/-- A cycle that has recorded a run of the monitor is about to move its schedule on. -/
def Phase.Moves (id : Uuid) : Phase → Prop
  | advancing _ _ m _ => m.id = id
  | _ => False

theorem Phase.Moves.holdsLock {id : Uuid} {φ : Phase} (h : φ.Moves id) : φ.HoldsLock := by
  cases φ <;> first | exact False.elim h | trivial

/-- A cycle that is about to move the schedule on does not leave the calendar. -/
theorem Phase.Moves.not_mayHalt {id : Uuid} {φ : Phase} (h : φ.Moves id) : ¬ φ.MayHalt := by
  cases φ <;> first | exact not_false | exact False.elim h

/-- Without the lock there is nothing to agree with. -/
theorem Phase.agrees_of_not_holdsLock {id : Uuid} {u : Timestamp} {i : Int} {φ : Phase}
    (h : ¬ φ.HoldsLock) : φ.Agrees id u i := by
  unfold Agrees
  split <;> first | trivial | exact absurd trivial h

/-- A cycle that takes its snapshot agrees with what is stored. -/
theorem Agreed.of_snapshot {id : Uuid} {u now : Timestamp} {due : List Monitor} {w w' : Commons}
    {k : Nat} (hw : w.Answers k (.store (.dueMonitors now)) (.ok due) w') (hnow : now.IsProper)
    (hnodup : (w.store.monitors.map Monitor.id).Nodup)
    (hstored : ∀ m ∈ w.store.monitors, m.id = id → m.nextRun = some u) : Agreed id u now due where
  proper := hnow
  nodup := hw.nodup_of_dueMonitors hnodup
  shown := by
    intro d hd heq
    obtain ⟨hmem, hdue⟩ := hw.mem_of_dueMonitors hd
    have hnext := hstored d hmem heq
    refine ⟨hnext, ?_⟩
    simpa [Monitor.isDue, hnext] using (Bool.and_eq_true_iff.1 hdue).2

/-- A passage that records no scheduled run of the monitor keeps its task in agreement. -/
theorem Passage.agrees {id : Uuid} {u : Timestamp} {i : Int} {a : Activity} {φ φ' : Phase}
    {c : Call} {answer : c.Answer} {w w' : Commons} {k : Nat} (h : Passage a φ c answer φ')
    (hw : w.Answers k c answer w') (hclock : w.clock.IsProper)
    (hnodup : (w.store.monitors.map Monitor.id).Nodup)
    (hstored : φ.HoldsLock → ¬ φ.Moves id →
      ∀ m ∈ w.store.monitors, m.id = id → m.nextRun = some u)
    (hknown : ∀ m ∈ φ.monitors, m.id = id → m.interval = some i)
    (hnone : (Event.call k a c answer).scheduled? id = none) (hφ : φ.Agrees id u i) :
    φ'.Agrees id u i := by
  cases h with
  | read | waste | tally => exact hφ
  | time =>
    obtain ⟨rfl, -⟩ := hw
    exact hclock
  | snapshot => exact .of_snapshot hw hφ hnodup (hstored trivial not_false)
  | @aim _ now passed rest d plan _ hplan =>
    have hleft : Agreed id u now (d :: rest) := hφ.of_append
    refine ⟨hleft.tail, hleft.ne_of_mem, fun heq => ?_⟩
    obtain ⟨hnext, hle⟩ := hleft.shown d (.head _) heq
    have hinterval := hknown d (List.mem_append_right _ (.head _)) heq
    rw [hnext, hinterval] at hplan
    exact ⟨hle, hplan⟩
  | advance => exact hφ.1
  | @submit _ k | @stamp _ k =>
    cases k with
    | trigger => exact hφ
    | _ => trivial
  | @reject _ k | @compensate _ k =>
    cases k with
    | trigger => exact hφ.1
    | _ => trivial
  | @refuse _ k =>
    cases k with
    | trigger => exact ⟨hφ.1, hφ.2.1⟩
    | _ => trivial
  | @record a k x r job now hk =>
    cases k with
    | trigger now rest next =>
      refine ⟨hφ.1, hφ.2.1, fun heq => ?_⟩
      cases a with
      | cycle template =>
        rw [Event.scheduled?_record heq] at hnone
        cases hnone
      | _ => exact False.elim hk
    | _ => trivial
  | _ => trivial

/-! ## The invariant -/

/-- The windows recorded so far tile, and everybody is about to carry on with them. -/
structure Tiled (m : Monitor) (i : Int) (t₀ : Timestamp) (es : List Event) (s : Scene) : Prop where
  clock : s.commons.clock.IsProper
  tile : Window.Tile (t₀.move (-minutes i)).truncate (scheduledWindows m.id es)
  proper : (nextDue t₀ i (scheduledWindows m.id es)).IsProper
  meets : ((nextDue t₀ i (scheduledWindows m.id es)).move (-minutes i)).truncate =
    Window.reach (t₀.move (-minutes i)).truncate (scheduledWindows m.id es)
  agrees : ∀ k, (s.phase k).Agrees m.id (nextDue t₀ i (scheduledWindows m.id es)) i
  /-- Either a cycle is about to move the schedule on, or it has been moved. -/
  stored : (∃ k, (s.phase k).Moves m.id) ∨
    ∀ m' ∈ s.commons.store.monitors, m'.id = m.id →
      m'.nextRun = some (nextDue t₀ i (scheduledWindows m.id es))

namespace Tiled

variable {m : Monitor} {i : Int} {t₀ : Timestamp} {home : Uuid → String × String}
  {es : List Event} {w w' : Commons} {g : Nat → Phase} {k : Nat} {a : Activity} {c : Call}
  {answer : c.Answer} {φ : Phase}

/-- A cycle that records a run of the monitor adds its window where the others end. -/
theorem call_record (h : Tiled m i t₀ es ⟨w, g⟩) (hexclusive : Scene.Exclusive ⟨w, g⟩) (hi : 5 ≤ i)
    {template : String} {now t : Timestamp} {rest : List Monitor} {next : Timestamp}
    {x : Assignment} {id : Uuid} {job : JobRef}
    (hk : g k = .stamped (.trigger now rest next) x id job t) (hx : x.monitor.id = m.id)
    (hw : w.Answers k (.store (.createRun (x.record id t))) (.ok ()) w') :
    Tiled m i t₀
      (es ++ [.call k (.cycle template) (.store (.createRun (x.record id t))) (.ok ())])
      ⟨w', Function.update g k (.advancing now rest x.monitor next)⟩ := by
  have hagrees := h.agrees k
  simp only [hk, Phase.Agrees] at hagrees
  obtain ⟨hrest, hne, hplanned⟩ := hagrees
  obtain ⟨hle, hplan⟩ := hplanned hx
  obtain ⟨-, hstart, -, hnext⟩ := Plan.make_eq hplan
  obtain ⟨hproper, hmeets⟩ := Plan.make_next hrest.proper hplan
  have hnonempty := Plan.make_nonempty h.proper hrest.proper hi hle hplan
  have hwindows : scheduledWindows m.id
      (es ++ [.call k (.cycle template) (.store (.createRun (x.record id t))) (.ok ())]) =
      scheduledWindows m.id es ++ [x.window] := by
    rw [scheduledWindows_concat, Event.scheduled?_record hx]
    rfl
  refine ⟨?_, ?_, ?_, ?_, fun j => ?_, .inl ⟨k, ?_⟩⟩
  · dsimp only
    rw [hw.clock_eq]
    exact h.clock
  · rw [hwindows]
    exact h.tile.concat (hstart.trans h.meets) hnonempty
  · rw [hwindows, nextDue_concat, ← hnext]
    exact hproper
  · rw [hwindows, nextDue_concat, Window.reach_concat, ← hnext]
    exact hmeets
  · rw [hwindows, nextDue_concat, ← hnext]
    refine Phase.to_update (·.Agrees _ _ _) (fun _ => ?_) fun hjk => ?_
    · refine ⟨hrest.of_not_mem ?_ next, hne, fun _ => rfl⟩
      exact fun d hd heq => hne d hd (heq.trans hx.symm)
    · -- nobody else is under the lock
      refine Phase.agrees_of_not_holdsLock fun hj => hjk ?_
      refine hexclusive.eq (i := j) (j := k) hj ?_
      simp only [hk, Phase.HoldsLock, Purpose.HoldsLock]
  · simp only [Function.update_self, Phase.Moves]
    exact hx

/-- A task that is about to move the schedule on stays so until it does. -/
theorem moves_of_call {id : Uuid} (hpassage : Passage a (g k) c answer φ)
    (hc : ∀ next, c ≠ .store (.advance id next)) (hk : (g k).Moves id) : φ.Moves id := by
  generalize g k = φ₀ at hpassage hk
  cases hpassage with
  | advance => exact absurd (by rw [show _ = id from hk]) (hc _)
  | tally => exact hk
  | read | waste => exact hk
  | _ => exact False.elim hk

/-- After a call that records no scheduled run of the monitor, a cycle is still about to move the
schedule on, or it has been moved. -/
theorem stored_of_call (h : Tiled m i t₀ es ⟨w, g⟩) (hsteady : Steady m i ⟨w, g⟩)
    (hpassage : Passage a (g k) c answer φ) (hw : w.Answers k c answer w') (hc : c.Leaves m i) :
    (∃ j, (Function.update g k φ j).Moves m.id) ∨
      ∀ m' ∈ w'.store.monitors, m'.id = m.id →
        m'.nextRun = some (nextDue t₀ i (scheduledWindows m.id es)) := by
  by_cases hadvance : ∃ next, c = .store (.advance m.id next)
  · -- the schedule is moved to where the cycle agrees it is to be
    right
    obtain ⟨next, rfl⟩ := hadvance
    obtain ⟨now, rest, d, hk, hd, -⟩ := hpassage.advance_inv
    have hagrees := h.agrees k
    simp only [hk, Phase.Agrees] at hagrees
    rw [← hagrees.2.2 hd.symm]
    intro m' hm' heq
    rw [hw.2] at hm'
    exact StoreCall.nextRun_of_advance hsteady.present (fun m₁ hm₁ heq₁ =>
      (hsteady.stored m₁ hm₁ heq₁).2) hm' heq
  · rcases h.stored with ⟨j, hj⟩ | hstored
    · refine .inl ⟨j, ?_⟩
      refine Phase.to_update (·.Moves m.id) (fun hjk => ?_) fun _ => hj
      exact moves_of_call hpassage (fun next heq => hadvance ⟨next, heq⟩) (hjk ▸ hj)
    · right
      intro m' hm' heq
      obtain ⟨m₁, hm₁, heq₁, -, hnext⟩ := Steady.stored_of_call hw hc hm' heq
      rcases hnext with hsame | ⟨next, hcall, -⟩
      · exact hsame.trans (hstored m₁ hm₁ heq₁)
      · exact absurd ⟨next, hcall⟩ hadvance

/-- A call that records no scheduled run of the monitor leaves its windows tiled. -/
theorem call_other (h : Tiled m i t₀ es ⟨w, g⟩) (hid : Identities home ⟨w, g⟩)
    (hsteady : Steady m i ⟨w, g⟩) (hexclusive : Scene.Exclusive ⟨w, g⟩)
    (hpassage : Passage a (g k) c answer φ) (hw : w.Answers k c answer w') (hc : c.Leaves m i)
    (hnone : (Event.call k a c answer).scheduled? m.id = none) :
    Tiled m i t₀ (es ++ [.call k a c answer]) ⟨w', Function.update g k φ⟩ := by
  have hwindows :
      scheduledWindows m.id (es ++ [.call k a c answer]) = scheduledWindows m.id es := by
    rw [scheduledWindows_concat, hnone]
    simp
  refine ⟨?_, hwindows ▸ h.tile, hwindows ▸ h.proper, hwindows ▸ h.meets, fun j => ?_,
    hwindows ▸ h.stored_of_call hsteady hpassage hw hc⟩
  · dsimp only
    rw [hw.clock_eq]
    exact h.clock
  · rw [hwindows]
    refine Phase.to_update (·.Agrees _ _ _) (fun _ => ?_) fun _ => h.agrees j
    refine hpassage.agrees hw h.clock hid.nodup (fun hlock hmoves => ?_) (hsteady.known k) hnone
      (h.agrees k)
    rcases h.stored with ⟨k', hk'⟩ | hstored
    · exact absurd (hexclusive.eq hk'.holdsLock hlock ▸ hk') hmoves
    · exact hstored

/-- Every call of an activity that spares the monitor leaves its windows tiled. -/
theorem call (h : Tiled m i t₀ es ⟨w, g⟩) (hid : Identities home ⟨w, g⟩)
    (hsteady : Steady m i ⟨w, g⟩) (hexclusive : Scene.Exclusive ⟨w, g⟩) (hi : 5 ≤ i)
    (hpassage : Passage a (g k) c answer φ) (hw : w.Answers k c answer w') (hc : c.Leaves m i) :
    Tiled m i t₀ (es ++ [.call k a c answer]) ⟨w', Function.update g k φ⟩ := by
  by_cases hnone : (Event.call k a c answer).scheduled? m.id = none
  · exact h.call_other hid hsteady hexclusive hpassage hw hc hnone
  · obtain ⟨_, template, r, heq, hr⟩ := Event.of_scheduled? hnone
    cases heq
    obtain ⟨k', x, id, job, t, hk, rfl, hsuits, ⟨-, rfl⟩ | ⟨e, herror, -⟩⟩ := hpassage.createRun
    · cases k' with
      | trigger now rest next => exact h.call_record hexclusive hi hk hr hw
      | _ => exact False.elim hsuits
    · cases herror

/-- The windows stay tiled while the scene rests, if the clock is not set to an improper instant. -/
theorem rests {s s' : Scene} {e : Event} (h : Tiled m i t₀ es s) (hrests : s.Rests s')
    (he : ∀ k a c answer, e ≠ .call k a c answer) (hclock : s'.commons.clock.IsProper) :
    Tiled m i t₀ (es ++ [e]) s' := by
  have hwindows : scheduledWindows m.id (es ++ [e]) = scheduledWindows m.id es := by
    rw [scheduledWindows_concat]
    cases e with
    | call k a c answer => exact absurd rfl (he k a c answer)
    | _ => simp [Event.scheduled?]
  refine ⟨hclock, hwindows ▸ h.tile, hwindows ▸ h.proper, hwindows ▸ h.meets, fun k => ?_, ?_⟩
  · rw [hwindows]
    exact hrests.to_phase (P := (·.Agrees _ _ _)) trivial (h.agrees k)
  · rw [hwindows, hrests.store]
    rcases h.stored with ⟨k, hk⟩ | hstored
    · exact .inl ⟨k, (hrests.phase_eq hk.not_mayHalt).symm ▸ hk⟩
    · exact .inr hstored

end Tiled

/-! ## Every history -/

namespace Scene

/-- Nothing but proper clock readings is shown to the tasks. -/
theorem Step.clock_isProper {s s' : Scene} {e : Event} (h : Step s e s')
    (he : e.IsPunctual) (hclock : s.commons.clock.IsProper) : s'.commons.clock.IsProper :=
  h.clock (fun _ heq => by subst heq; exact he) hclock

/-- At every moment of a history that spares a monitor, the windows of its scheduled runs tile. -/
theorem History.tiled {m : Monitor} {i : Int} {t₀ : Timestamp} {home : Uuid → String × String}
    {s₀ s : Scene} {es : List Event} (h : s₀.History es s) (hfuture : m.isFuture = true)
    (hinterval : m.interval = some i) (hi : 5 ≤ i) (hspares : ∀ e ∈ es, e.Spares m)
    (hid : Identities home s₀) (hhome : home m.id = (m.org, m.name)) (hexclusive : s₀.Exclusive)
    (hsteady : Steady m i s₀) (htiled : Tiled m i t₀ [] s₀) :
    s.Exclusive ∧ Steady m i s ∧ Tiled m i t₀ es s := by
  suffices hall : (∃ home, Identities home s ∧ home m.id = (m.org, m.name)) ∧ s.Exclusive ∧
      Steady m i s ∧ Tiled m i t₀ es s from hall.2
  induction h with
  | nil => exact ⟨⟨home, hid, hhome⟩, hexclusive, hsteady, htiled⟩
  | @snoc es e s₁ s₂ _ hstep ih =>
    obtain ⟨⟨home, hid, hhome⟩, hexclusive, hsteady, htiled⟩ :=
      ih fun e he => hspares e (List.mem_append_left _ he)
    have he : e.Spares m := hspares e (List.mem_append_right _ (.head _))
    obtain ⟨home', hid', hsame⟩ := hid.step hstep
    refine ⟨⟨home', hid', (hsame _ hsteady.issued).trans hhome⟩, hexclusive.step hstep, ?_⟩
    rcases hstep.call_or_rests with ⟨k, a, c, answer, rfl⟩ | ⟨hother, hrests⟩
    · cases hstep with
      | call hpassage hw =>
        have hc := hsteady.leaves hid hhome hfuture hinterval he hpassage
        exact ⟨hsteady.call hpassage hw hc,
          htiled.call hid hsteady hexclusive hi hpassage hw hc⟩
    · exact ⟨hsteady.rests hrests,
        htiled.rests hrests hother (hstep.clock_isProper he.isPunctual htiled.clock)⟩

end Scene

end TraceWatch
