import TraceWatch.Proofs.Execution.Outcome
import TraceWatch.Proofs.Schedule.Tiling
import TraceWatch.Proofs.System.Replay

/-!
# Trace time is covered

The statement about sites that the invariant of the schedule gives: `scheduled_windows_tile`. At
every moment of every history of a fresh site, the windows that cycles have recorded for a monitor
tile from one interval before its first due instant on, and the stored schedule is an interval after
the last of them, unless a cycle is just about to move it there.
-/

namespace TraceWatch

open Timestamp

/-! ## Cycles about to move a schedule on -/

/-- The next thing the program does, apart from counting, is to move the schedule of a monitor
on. -/
def Program.AboutToAdvance {α : Type} (id : Uuid) : Program α → Prop
  | call (.store (.advance id' _)) _ => id' = id
  | call (.count _) next => (next ()).AboutToAdvance id
  | _ => False

/-- The task has recorded a run of a monitor and is about to move its schedule on. -/
def Task.IsAdvancing (id : Uuid) (task : Task) : Prop := task.rest.AboutToAdvance id

namespace Program

variable {α : Type} {a : Activity} {post : α → Phase → Prop} {id : Uuid}

/-- A program in the phase before the schedule is moved on is about to move it. -/
theorem Follows.aboutToAdvance (hpost : ∀ v φ, post v φ → φ.IsSettled) {p : Program α} {φ : Phase}
    (h : p.Follows a post φ) (hφ : φ.Moves id) : p.AboutToAdvance id := by
  induction p generalizing φ with
  | done v =>
    have hsettled := hpost v φ h
    cases φ <;> first | exact False.elim hφ | exact False.elim hsettled
  | halt => cases φ <;> first | exact False.elim hφ | exact False.elim h
  | call c next ih =>
    obtain ⟨answer, hanswer⟩ := c.exists_possible
    obtain ⟨φ', hpassage, hnext⟩ := h answer hanswer
    cases hpassage with
    | read _ hread => cases φ <;> first | exact False.elim hφ | exact False.elim hread
    | waste hread =>
      rcases hread with hread | ⟨m, r, rfl⟩
      · cases φ <;> first | exact False.elim hφ | exact False.elim hread
      · exact False.elim hφ
    | tally => exact ih () hnext hφ
    | advance => exact hφ
    | _ => exact False.elim hφ

end Program

/-- A task seen in the phase before the schedule is moved on is about to move it. -/
theorem Site.SeenAs.isAdvancing {s : Site} {g : Scene} (h : s.SeenAs g) {id : Uuid} {k : Nat}
    (hk : (g.phase k).Moves id) : ∃ task ∈ s.tasks, task.IsAdvancing id := by
  by_cases hlt : k < s.tasks.length
  · have htask : s.tasks[k]? = some ⟨s.tasks[k].activity, s.tasks[k].rest⟩ :=
      List.getElem?_eq_getElem hlt
    refine ⟨s.tasks[k], List.getElem_mem hlt, ?_⟩
    exact (h.follows k _ _ htask).aboutToAdvance (fun v φ => Activity.MayEnd.isSettled) hk
  · rw [h.waiting k (Nat.le_of_not_lt hlt)] at hk
    exact False.elim hk

/-! ## Failed submissions -/

namespace Assignment

open Program

/-- An execution whose job is not accepted changes nothing and fails. -/
theorem allIdle_of_submit_error {x : Assignment} {moves : List Move}
    {result : Except MonitorError Run} (h : Plays x.operation.run moves result)
    (hfailed : ∃ spec e, ⟨.submit spec, .error e⟩ ∈ planeMoves moves) :
    AllIdle moves ∧ ∃ e, result = .error e := by
  rw [operation_run] at h
  obtain ⟨id, s, s', rest, rfl, hdraw, h⟩ := h.of_call
  split at h
  · obtain ⟨rfl, rfl⟩ := h.of_done
    obtain ⟨spec, e, hmem⟩ := hfailed
    exact absurd hmem List.not_mem_nil
  · obtain ⟨answer, s₁, s₁', rest, rfl, hsubmit, h⟩ := h.of_call
    cases answer with
    | error e =>
      obtain ⟨rfl, rfl⟩ := h.of_done
      exact ⟨allIdle_cons.2 ⟨hdraw, allIdle_cons.2 ⟨hsubmit, allIdle_nil⟩⟩, _, rfl⟩
    | ok job =>
      -- once the job is accepted there is no other submission
      exfalso
      obtain ⟨spec, e, hmem⟩ := hfailed
      obtain ⟨now, s₂, s₂', rest, rfl, -, h⟩ := h.of_call
      obtain ⟨answer, s₃, s₃', rest, rfl, -, h⟩ := h.of_call
      rcases answer with e' | _
      · obtain ⟨deleted, s₄, s₄', rest, rfl, -, h⟩ := h.of_call
        obtain ⟨rfl, -⟩ := h.of_done
        simp [planeMoves, Move.plane?] at hmem
      · obtain ⟨_, s₄, s₄', rest, rfl, -, h⟩ := h.of_call
        obtain ⟨rfl, -⟩ := h.of_done
        simp [planeMoves, Move.plane?] at hmem

end Assignment

open Program in
/-- A trigger whose job is not accepted changes nothing. -/
theorem Service.trigger_allIdle {template : String} {m : Monitor} {now : Timestamp}
    {moves : List Move} {result : Except MonitorError Run}
    (h : Plays (trigger template m now).run moves result)
    (hfailed : ∃ spec e, ⟨.submit spec, .error e⟩ ∈ planeMoves moves) : AllIdle moves := by
  rw [trigger_run] at h
  split at h
  · rw [h.of_done.1]
    exact allIdle_nil
  · cases h
  · obtain ⟨first, second, r, rfl, hfirst, hsecond⟩ := h.of_bind
    have hsecond_plane : planeMoves second = [] := by
      cases r with
      | error e =>
        rw [hsecond.of_done.1]
        rfl
      | ok r =>
        obtain ⟨_, s, s', rest, rfl, -, hsecond⟩ := hsecond.of_call
        obtain ⟨_, s₁, s₁', rest, rfl, -, hsecond⟩ := hsecond.of_call
        rw [hsecond.of_done.1]
        rfl
    rw [planeMoves_append, hsecond_plane, List.append_nil] at hfailed
    obtain ⟨hidle, e, rfl⟩ := Assignment.allIdle_of_submit_error hfirst hfailed
    rw [hsecond.of_done.1, List.append_nil]
    exact hidle

/-! ## The statement -/

namespace Site

variable {s₀ s : Site} {es : List Event} {m : Monitor} {i : Int} {t₀ : Timestamp}

/-- At a fresh site a future monitor in the store is steady. -/
theorem IsFresh.steady (hfresh : s₀.IsFresh) (hm : m ∈ s₀.commons.store.monitors)
    (hinterval : m.interval = some i) (hnext : m.nextRun = some t₀) :
    Steady m i (Scene.ofCommons s₀.commons) := by
  refine ⟨hfresh.monitorIssued m hm, ⟨m, hm, rfl⟩, fun m' hm' heq => ?_,
    fun k m' hm' => absurd hm' List.not_mem_nil, fun k m' hm' => absurd hm' List.not_mem_nil⟩
  rw [List.inj_on_of_nodup_map hfresh.monitorIds hm' hm heq]
  exact ⟨hinterval, by rw [hnext]; rfl⟩

/-- At a fresh site nothing has been recorded, and the monitor is due when it is stored to be. -/
theorem IsFresh.tiled (hfresh : s₀.IsFresh) (hm : m ∈ s₀.commons.store.monitors)
    (hnext : m.nextRun = some t₀) (ht₀ : t₀.IsProper) (hclock : s₀.commons.clock.IsProper) :
    Tiled m i t₀ [] (Scene.ofCommons s₀.commons) := by
  refine ⟨hclock, trivial, ht₀, rfl, fun k => trivial, .inr fun m' hm' heq => ?_⟩
  rw [List.inj_on_of_nodup_map hfresh.monitorIds hm' hm heq]
  exact hnext

/-- Scheduled windows cover trace time. Take a future monitor that is due at `t₀`, and any history
of a fresh site that spares it. The windows recorded by cycles begin one interval before `t₀`, cut
to a whole second; each begins where the one before it ended, and none is empty. Unless a cycle is
about to move the schedule on, the monitor is next due one interval after the last recorded end. And
a trigger whose job is not accepted changes nothing. -/
theorem scheduled_windows_tile (hfresh : s₀.IsFresh) (h : s₀.History es s)
    (hm : m ∈ s₀.commons.store.monitors) (hfuture : m.kind = .future)
    (hinterval : m.interval = some i) (hi : minInterval ≤ i) (hnext : m.nextRun = some t₀)
    (ht₀ : t₀.IsProper) (hclock : s₀.commons.clock.IsProper) (hspares : ∀ e ∈ es, e.Spares m) :
    Window.Tile (t₀.move (-minutes i)).truncate (scheduledWindows m.id es) ∧
      ((∃ task ∈ s.tasks, task.IsAdvancing m.id) ∨
        (s.commons.store.findMonitor m.id).map Monitor.nextRun =
          some (some (nextDue t₀ i (scheduledWindows m.id es)))) ∧
      ∀ template m' now moves result,
        (Service.trigger template m' now).run.Plays moves result →
        (∃ spec e, ⟨.submit spec, .error e⟩ ∈ planeMoves moves) → AllIdle moves := by
  obtain ⟨home, hid⟩ := Identities.start hfresh
  obtain ⟨g, hg, hseen⟩ := h.exists_scene hfresh.tasks
  have hhome : home m.id = (m.org, m.name) := (hid.stored m hm).2
  obtain ⟨-, hsteady, htiled⟩ := hg.tiled (by simp [Monitor.isFuture, hfuture]) hinterval hi
    hspares hid hhome (.start _) (hfresh.steady hm hinterval hnext)
    (hfresh.tiled hm hnext ht₀ hclock)
  refine ⟨htiled.tile, ?_, fun _ _ _ _ _ => Service.trigger_allIdle⟩
  rcases htiled.stored with ⟨k, hk⟩ | hstored
  · exact .inl (hseen.isAdvancing hk)
  · rw [hseen.commons] at hstored
    have hpresent := hsteady.present
    rw [hseen.commons] at hpresent
    obtain ⟨m', hm', heq⟩ := hpresent
    obtain ⟨found, hfound⟩ : ∃ found, s.commons.store.findMonitor m.id = some found :=
      Option.isSome_iff_exists.1 (List.find?_isSome.2 ⟨m', hm', by simpa using heq⟩)
    refine .inr ?_
    rw [hfound, Option.map_some]
    refine congrArg some (hstored found (List.mem_of_find?_eq_some hfound) ?_)
    simpa using List.find?_some hfound

/-- A cycle a little after an hourly monitor is due, and another one much later. -/
def twoCycles : List Turn :=
  Turn.alone (.cycle "evaluation") 0 16 ++ .clock ⟨9000, 0⟩ :: Turn.alone (.cycle "evaluation") 1 12

/-- Of two cycles that carry the same monitor out. -/
theorem scheduled_windows_tile_twoCycles :
    let m := Monitor.hourly 1000 "tone" ⟨3600, 0⟩
    let es := ((holding [m] ⟨3700, 0⟩).after .accepting twoCycles).1
    scheduledWindows m.id es = [⟨⟨0, 0⟩, ⟨3520, 0⟩⟩, ⟨⟨3520, 0⟩, ⟨8820, 0⟩⟩] ∧
      (∀ e ∈ es, e.Spares m) ∧
      Window.Tile ((⟨3600, 0⟩ : Timestamp).move (-minutes 60)).truncate
        (scheduledWindows m.id es) := by
  refine ⟨by decide +kernel, by decide +kernel, ?_⟩
  exact (scheduled_windows_tile (holding_isFresh (by decide) _) (history_after (by decide +kernel))
    (.head _) rfl rfl (by decide) rfl (by decide) (by decide) (by decide +kernel)).1

end Site

end TraceWatch
