import TraceWatch.Proofs.Cycle.Alone
import TraceWatch.Proofs.Loop.Background
import TraceWatch.Proofs.Monitors.Deletion
import TraceWatch.Proofs.Schedule.Switch

/-!
# No loop breaks

A loop ends with its cycle if the cycle leaves the calendar. Here is why that does not happen while
the clock and the intervals are ordinary. A monitor that is due then has a due instant that the
calendar has room around, whatever intervals it has had before (`Scene.IsOrdinary`), so all that is
computed for its trigger is there (`Monitor.CanBePlanned`). Nothing but such a computation makes a
cycle halt (`Service.cycle_halts_listed`), and nothing at all makes another activity halt
(`Activity.isCycle_or_returns`). The calendar has room to spare: the instants from 1970 to 2262 are
ordinary by far (`Timestamp.isOrdinary_of_isBetween`).
-/

namespace TraceWatch

open Program

/-! ## What a trigger computes -/

namespace Timestamp

/-- The instant lies between the beginnings of two days. -/
def IsBetween (first last : Date) (t : Timestamp) : Prop :=
  first.toDays * secondsPerDay ≤ t.second ∧ t.second < last.toDays * secondsPerDay

/-- The instants from 1970 to 2262 are ordinary. -/
theorem isOrdinary_of_isBetween {t : Timestamp} (ht : t.IsProper)
    (h : t.IsBetween ⟨1970, 1, 1⟩ ⟨2263, 1, 1⟩) : t.IsOrdinary := by
  have hfirst : Date.toDays ⟨1970, 1, 1⟩ * secondsPerDay = 0 := by decide
  have hlast : Date.toDays ⟨2263, 1, 1⟩ * secondsPerDay = 9246182400 := by decide
  obtain ⟨hlate, hearly⟩ := h
  rw [hfirst] at hlate
  rw [hlast] at hearly
  exact ⟨⟨ht, by simp only [farthest]; omega⟩, by simp only [farthest]; omega⟩

end Timestamp

namespace Plan

/-- The largest number that is reckoned with. -/
def largest : Int := 0x7FFFFFFFFFFFFFFF

/-- The longest duration, in seconds: it is kept in milliseconds. -/
def longestDuration : Int := largest / 1000

/-- Everything that is computed for a plan is there: the share of the interval is a number, the
margin and the interval are durations, and the calendar has the instants. -/
structure IsComputable (due now : Timestamp) (i : Int) : Prop extends IsInCalendar due now i where
  share : 0 ≤ i * marginPercent + 99 ∧ i * marginPercent + 99 ≤ largest
  margin : 0 ≤ marginMinutes i * 60 ∧ marginMinutes i * 60 ≤ longestDuration
  interval : 0 ≤ i * 60 ∧ i * 60 ≤ longestDuration

/-- For an interval that a request can have, nothing but the calendar is in the way. -/
theorem isComputable {due now : Timestamp} {i : Int} (hi : 1 ≤ i) (hlong : i ≤ longestInterval)
    (h : IsInCalendar due now i) : IsComputable due now i := by
  have hlongest : longestDuration = 9223372036854775 := by decide
  have hmargin := one_le_marginMinutes hi
  have hshort := marginMinutes_le hi
  simp only [longestInterval] at hlong
  refine ⟨h, ?_, ?_, ?_⟩
  · simp only [marginPercent, largest]
    omega
  · rw [hlongest]
    omega
  · rw [hlongest]
    omega

end Plan

namespace Monitor

/-- The monitor has a due instant and an interval that a request can have, everything that its
trigger computes with them at the instant is there, and it comes to a plan. -/
def CanBePlanned (m : Monitor) (t : Timestamp) : Prop :=
  ∃ u i, m.nextRun = some u ∧ m.interval = some i ∧ 5 ≤ i ∧ i ≤ Plan.longestInterval ∧
    Plan.IsComputable u t i ∧ ∃ plan, Plan.make (some u) (some i) t = .ok (some plan)

variable {m : Monitor} {t : Timestamp}

/-- A monitor that is due at an ordinary instant can be planned. -/
theorem IsOrdinary.canBePlanned (h : m.IsOrdinary) (hwell : m.IsWellFormed) (ht : t.IsOrdinary)
    (hdue : m.isDue t = true) : m.CanBePlanned t := by
  obtain ⟨u, i, hu, hi, hlong, hshort, hcalendar⟩ := h.exists_isInCalendar hwell ht hdue
  have hpos : 1 ≤ i := by omega
  exact ⟨u, i, hu, hi, hlong, hshort, Plan.isComputable hpos hshort hcalendar,
    Plan.exists_make_of_isInCalendar hpos hcalendar⟩

/-- The plan for a monitor that can be planned does not leave the calendar. -/
theorem CanBePlanned.make_ne (h : m.CanBePlanned t) :
    Plan.make m.nextRun m.interval t ≠ .ok none := by
  obtain ⟨u, i, hu, hi, -, -, -, plan, hplan⟩ := h
  rw [hu, hi, hplan]
  nofun

end Monitor

/-! ## What halts -/

namespace Service

/-- An edit comes to an end. -/
theorem update_returns (org name : String) (edit : Edit) : (update org name edit).run.Returns := by
  rw [update_run]
  rintro (e | _ | m)
  · trivial
  · trivial
  · dsimp only
    split
    · trivial
    · rintro now (e | _)
      · trivial
      · exact (readsOnly_get org name).returns

/-- So does a run that is carried out again. -/
theorem rerun_returns (template org name : String) (id : Uuid) :
    (rerun template org name id).run.Returns := by
  rw [rerun_run]
  rintro (e | _ | m)
  · trivial
  · trivial
  · rintro (e | _ | r)
    · trivial
    · trivial
    · dsimp only
      split
      · exact Assignment.operation_returns _
      · trivial

end Service

/-- Every activity but a cycle comes to an end. -/
theorem Activity.isCycle_or_returns (a : Activity) :
    (∃ template, a = .cycle template) ∨ a.operation.run.Returns := by
  cases a with
  | cycle template => exact .inl ⟨template, rfl⟩
  | create template org request => exact .inr (Service.create_returns template org request)
  | get org name => exact .inr (Service.readsOnly_get org name).returns
  | list org filter => exact .inr (Service.readsOnly_list org filter).returns
  | update org name edit => exact .inr (Service.update_returns org name edit)
  | delete org name => exact .inr (Service.delete_returns org name)
  | stop org name => exact .inr (Switch.off.returns org name)
  | start org name => exact .inr (Switch.on.returns org name)
  | runs org name limit => exact .inr (Service.readsOnly_runs org name limit).returns
  | rerun template org name id => exact .inr (Service.rerun_returns template org name id)
  | logs org name id => exact .inr (Service.readsOnly_logs org name id).returns

namespace Site

variable {s₀ s : Site} {es : List Event} {k : Nat}

/-- With its first calls a cycle has taken the lock, read the instant off the clock and listed the
monitors that are due. -/
def ListsDue (k : Nat) (template : String) (t : Timestamp) (due : List Monitor)
    (es : List Event) : Prop :=
  ∃ later, es.filter (·.caller = some k) =
    .call k (.cycle template) .acquireLock (.ok true) :: .call k (.cycle template) .now t ::
      .call k (.cycle template) (.store (.dueMonitors t)) (.ok due) :: later

/-- Only a cycle halts, and it has listed a monitor as due whose plan leaves the calendar. -/
theorem History.lists_of_halt (h : s₀.History es s) (hnew : s₀.IsNew) {a : Activity}
    (htask : s.tasks[k]? = some ⟨a, .halt⟩) :
    ∃ template t due, ListsDue k template t due es ∧
      ∃ m ∈ due, Plan.make m.nextRun m.interval t = .ok none := by
  obtain ⟨moves, hmoves⟩ := h.exists_moves (hnew.tasks ▸ Nat.zero_le k) htask
  rcases a.isCycle_or_returns with ⟨template, rfl⟩ | hreturns
  · obtain ⟨s₁, s₂, s₃, t, rest, rfl, hnone⟩ := Service.cycle_halts_listed hmoves.leads
    exact ⟨template, t, _, ⟨_, hmoves.events⟩, hnone⟩
  · exact False.elim (hmoves.leads.returns hreturns)

/-! ## What is computed at a site -/

/-- Nothing that a cycle has computed, or can compute at an ordinary instant, has left the calendar,
and no loop that has its cycles at the site breaks. -/
structure KeepsToCalendar (s : Site) (es : List Event) : Prop where
  stored : ∀ m ∈ s.commons.store.monitors, ∀ t : Timestamp, t.IsOrdinary → m.isDue t = true →
    m.CanBePlanned t
  listed : ∀ k template t due, ListsDue k template t due es → ∀ m ∈ due, m.CanBePlanned t
  halts : ∀ task ∈ s.tasks, task.rest ≠ .halt
  breaks : ∀ b : Background, b.site = s → ∀ l s' l', ¬ b.Moves l .breaks s' l'

/-- A stored monitor that is due at an ordinary instant can be planned, if nothing out of the
ordinary has happened. -/
theorem History.canBePlanned (h : s₀.History es s) (hnew : s₀.IsNew)
    (hclock : s₀.commons.clock.IsOrdinary) (hes : ∀ e ∈ es, e.IsOrdinary) {m : Monitor}
    (hm : m ∈ s.commons.store.monitors) {t : Timestamp} (ht : t.IsOrdinary)
    (hdue : m.isDue t = true) : m.CanBePlanned t := by
  obtain ⟨-, hordinary⟩ := h.isOrdinary hnew hclock hes
  have hwell : m.IsWellFormed := Reachable.isWellFormed ⟨s₀, es, hnew, h⟩ m hm
  exact (hordinary m hm).canBePlanned hwell ht hdue

/-- So can the monitors that cycles have listed as due. -/
theorem History.canBePlanned_of_listsDue (h : s₀.History es s) (hnew : s₀.IsNew)
    (hclock : s₀.commons.clock.IsOrdinary) (hes : ∀ e ∈ es, e.IsOrdinary) {template : String}
    {t : Timestamp} {due : List Monitor} (hlists : ListsDue k template t due es) {m : Monitor}
    (hm : m ∈ due) : m.CanBePlanned t := by
  obtain ⟨later, hcalls⟩ := hlists
  have hmem : ∀ e ∈ es.filter (·.caller = some k), e ∈ es := fun e he => (List.mem_filter.1 he).1
  rw [hcalls] at hmem
  have ht : t.IsOrdinary := h.isOrdinary_of_now hnew hclock hes (hmem _ (.tail _ (.head _)))
  obtain ⟨es₁, es₂, rfl⟩ := List.append_of_mem (hmem _ (.tail _ (.tail _ (.head _))))
  obtain ⟨s₁, s₂, hbefore, hstep, -⟩ := h.split_cons
  obtain ⟨hstored, hdue⟩ : m ∈ s₁.commons.store.monitors ∧ m.isDue t = true := by
    cases hstep with
    | call _ hw => exact hw.mem_of_dueMonitors hm
  exact hbefore.canBePlanned hnew hclock (fun e he => hes e (List.mem_append_left _ he)) hstored
    ht hdue

/-- After every history that begins with an empty store and in which the clock and the intervals
are ordinary, everything is there that the trigger of a monitor computes, no cycle has halted, and
no loop breaks. The instants from 1970 to 2262 are ordinary. -/
theorem calendar_is_never_left (hnew : s₀.IsNew) (hclock : s₀.commons.clock.IsOrdinary)
    (hes : ∀ e ∈ es, e.IsOrdinary) (h : s₀.History es s) :
    s.KeepsToCalendar es ∧
      ∀ t : Timestamp, t.IsProper → t.IsBetween ⟨1970, 1, 1⟩ ⟨2263, 1, 1⟩ → t.IsOrdinary := by
  have hlisted : ∀ k template t due, ListsDue k template t due es → ∀ m ∈ due, m.CanBePlanned t :=
    fun k template t due hlists m hm => h.canBePlanned_of_listsDue hnew hclock hes hlists hm
  have hhalts : ∀ task ∈ s.tasks, task.rest ≠ .halt := by
    rintro ⟨a, rest⟩ htask hhalt
    obtain rfl : rest = .halt := hhalt
    obtain ⟨k, hk⟩ := List.mem_iff_getElem?.1 htask
    obtain ⟨template, t, due, hlists, m, hm, hnone⟩ := h.lists_of_halt hnew hk
    exact (hlisted k template t due hlists m hm).make_ne hnone
  refine ⟨⟨fun m hm t => h.canBePlanned hnew hclock hes hm, hlisted, hhalts, ?_⟩,
    fun t => Timestamp.isOrdinary_of_isBetween⟩
  rintro b rfl l s' l' hmove
  -- a loop breaks only with a cycle that has halted
  cases hmove with
  | breaks _ hstep =>
    obtain ⟨⟨a, htask⟩, -⟩ := hstep.of_drops
    exact hhalts _ (List.mem_of_getElem? htask) rfl

/-- A monitor that has been created in 1970 gets the longest interval, and the next cycle comes in
the last second of 2262. -/
def prolonged : List Turn :=
  Turn.alone (.create "evaluation" "acme" (.tone "tone" none)) 0 6 ++
    Turn.alone (.update "acme" "tone" ⟨none, none, none, some Plan.longestInterval⟩) 1 5 ++
    .clock ⟨9246182399, 999999999⟩ :: Turn.alone (.cycle "evaluation") 2 16

/-- Of an interval that is edited while its monitor is active. -/
theorem calendar_is_never_left_prolonged :
    let s := (holding [] ⟨0, 0⟩).after .accepting prolonged
    (holding [] ⟨0, 0⟩).IsNew ∧ (⟨0, 0⟩ : Timestamp).IsOrdinary ∧ (∀ e ∈ s.1, e.IsOrdinary) ∧
      (holding [] ⟨0, 0⟩).History s.1 s.2 ∧
      s.2.commons.store.monitors.map (fun m => (m.nextRun, m.interval)) =
        [(some ⟨131652750239, 0⟩, some Plan.longestInterval)] ∧
      s.2.KeepsToCalendar s.1 := by
  intro s
  have hnew : (holding [] ⟨0, 0⟩).IsNew := ⟨rfl, rfl, rfl⟩
  have hclock : (⟨0, 0⟩ : Timestamp).IsOrdinary := by decide
  have hes : ∀ e ∈ s.1, e.IsOrdinary := by decide +kernel
  have hhistory : (holding [] ⟨0, 0⟩).History s.1 s.2 := history_after (by decide +kernel)
  exact ⟨hnew, hclock, hes, hhistory, by decide +kernel,
    (calendar_is_never_left hnew hclock hes hhistory).1⟩

end Site

end TraceWatch
