import TraceWatch.Proofs.Monitors.Origin
import TraceWatch.Proofs.Monitors.Rules
import TraceWatch.Proofs.Store.Schedule
import TraceWatch.Proofs.System.Replay

/-!
# Well-formed monitors

Every stored monitor keeps to the rules that its creation and its edits were checked against
(`Monitor.IsWellFormed`). The same holds of every copy that a task has read; that is what an edit
needs, for it is checked against a copy and written over what is stored by then. The two agree in
their kind, since that is fixed (`Scene.Fixes`).
-/

namespace TraceWatch

/-! ## What a monitor is like -/

/-- The monitor keeps to the rules. A future monitor has an interval and no window. A past monitor
has a window of whole seconds that had elapsed when it was created; it has no interval and is never
due. -/
structure Monitor.IsWellFormed (m : Monitor) : Prop where
  name : Rules.checkName m.name = .ok ()
  displayName : Text.isBlank m.displayName = false
  evaluators : m.evaluators ≠ []
  identifiers : ∀ e ∈ m.evaluators, Text.isBlank e.identifier = false
  distinct : (m.evaluators.map Evaluator.identifier).Nodup
  samplingRate : Rules.checkSamplingRate m.samplingRate = .ok ()
  future : m.kind = .future →
    (∃ i, m.interval = some i ∧ 5 ≤ i) ∧ m.traceStart = none ∧ m.traceEnd = none
  past : m.kind = .past → m.interval = none ∧ m.nextRun = none ∧
    ∃ start stop, m.traceStart = some start ∧ m.traceEnd = some stop ∧ start.IsWhole ∧
      stop.IsWhole ∧ start < stop ∧ stop ≤ m.createdAt

/-- An instant cut to a whole second is a whole second. -/
theorem Timestamp.truncate_isWhole (t : Timestamp) : t.truncate.IsWhole := by
  unfold IsWhole truncate
  cases hleap : t.isLeap with
  | true => rfl
  | false => rfl

namespace NewMonitor

variable {r : NewMonitor} {id : Uuid} {org agentId environmentId : String} {now : Timestamp}

/-- A request for a future monitor is accepted without a window, and with an interval that is long
enough if it has one. -/
theorem checkKind_future (h : r.checkKind now = .ok ()) (hkind : r.kind = .future) :
    r.traceStart = none ∧ r.traceEnd = none ∧ ∀ i, r.interval = some i → 5 ≤ i := by
  simp only [checkKind, hkind] at h
  split at h
  · cases h
  · next hwindow =>
    rw [Bool.or_eq_true, not_or, Option.not_isSome_iff_eq_none, Option.not_isSome_iff_eq_none]
      at hwindow
    refine ⟨hwindow.1, hwindow.2, fun i hi => ?_⟩
    rw [hi] at h
    exact Rules.checkInterval_eq_ok.1 h

/-- A request for a past monitor is accepted without an interval, and with a window that is not
empty and has elapsed. -/
theorem checkKind_past (h : r.checkKind now = .ok ()) (hkind : r.kind = .past) :
    r.interval = none ∧ ∃ start stop, r.traceStart = some start ∧ r.traceEnd = some stop ∧
      start < stop ∧ stop ≤ now := by
  simp only [checkKind, hkind] at h
  split at h
  · cases h
  · next hinterval =>
    split at h
    · next start stop hstart hstop =>
      obtain ⟨hlt, hle⟩ := Rules.checkWindow_eq_ok.1 h
      exact ⟨Option.not_isSome_iff_eq_none.1 hinterval, start, stop, hstart, hstop, hlt, hle⟩
    · cases h

/-- The monitor that an accepted request describes keeps to the rules. -/
theorem toMonitor_isWellFormed (h : r.truncate.check now = .ok ()) :
    (r.truncate.toMonitor id org agentId environmentId now).IsWellFormed := by
  obtain ⟨hname, hdisplay, hevaluators, hrate, hkind⟩ := check_eq_ok.1 h
  obtain ⟨hsome, hblank, hdistinct⟩ := Rules.checkEvaluators_eq_ok.1 hevaluators
  refine ⟨hname, Rules.checkDisplayName_eq_ok.1 hdisplay, hsome, hblank, hdistinct, ?_,
    fun hfuture => ?_, fun hpast => ?_⟩
  · show Rules.checkSamplingRate (r.samplingRate.getD defaultSamplingRate) = .ok ()
    cases hset : r.samplingRate with
    | none => decide
    | some rate => exact hrate rate hset
  · change r.kind = .future at hfuture
    obtain ⟨hstart, hstop, hlong⟩ := checkKind_future hkind hfuture
    refine ⟨⟨r.interval.getD defaultInterval, if_pos hfuture, ?_⟩, hstart, hstop⟩
    cases hset : r.interval with
    | none => decide
    | some i => exact hlong i hset
  · change r.kind = .past at hpast
    obtain ⟨-, start, stop, hstart, hstop, hlt, hle⟩ := checkKind_past hkind hpast
    obtain ⟨start, -, rfl⟩ := Option.map_eq_some_iff.1 hstart
    obtain ⟨stop, -, rfl⟩ := Option.map_eq_some_iff.1 hstop
    have hnot : ¬ r.kind = .future := by simp [hpast]
    exact ⟨if_neg hnot, if_neg hnot, _, _, hstart, hstop, start.truncate_isWhole,
      stop.truncate_isWhole, hlt, hle⟩

end NewMonitor

namespace Monitor.IsWellFormed

variable {m : Monitor}

/-- A monitor keeps to the rules with another instant at which it is due, unless it is a past
one. -/
theorem reschedule (h : m.IsWellFormed) {next : Option Timestamp}
    (hnext : m.kind = .past → next = none) (t : Timestamp) :
    IsWellFormed { m with nextRun := next, updatedAt := t } :=
  { h with past := fun hpast => ⟨(h.past hpast).1, hnext hpast, (h.past hpast).2.2⟩ }

/-- A monitor keeps to the rules with the definition of another one of its kind. -/
theorem define (h : m.IsWellFormed) {d : Monitor} (hd : d.IsWellFormed) (hkind : d.kind = m.kind) :
    IsWellFormed { m with
      displayName := d.displayName
      evaluators := d.evaluators
      samplingRate := d.samplingRate
      interval := d.interval
      updatedAt := d.updatedAt } where
  name := h.name
  displayName := hd.displayName
  evaluators := hd.evaluators
  identifiers := hd.identifiers
  distinct := hd.distinct
  samplingRate := hd.samplingRate
  future := fun hfuture => ⟨(hd.future (hkind.trans hfuture)).1, (h.future hfuture).2⟩
  past := fun hpast => ⟨(hd.past (hkind.trans hpast)).1, (h.past hpast).2⟩

/-- A monitor keeps to the rules when an accepted edit is put in. -/
theorem edit (h : m.IsWellFormed) {edit : Edit} (hcheck : edit.check m = .ok ()) (t : Timestamp) :
    IsWellFormed { edit.apply m with updatedAt := t } := by
  obtain ⟨hdisplay, hevaluators, hrate, hinterval⟩ := Edit.check_eq_ok.1 hcheck
  have hold := Rules.checkEvaluators_eq_ok.2 ⟨h.evaluators, h.identifiers, h.distinct⟩
  obtain ⟨hsome, hblank, hdistinct⟩ :=
    Rules.checkEvaluators_eq_ok.1 (Edit.check_getD hevaluators hold)
  refine ⟨h.name, ?_, hsome, hblank, hdistinct, Edit.check_getD hrate h.samplingRate,
    fun hfuture => ⟨?_, (h.future hfuture).2⟩, fun hpast => ⟨?_, (h.past hpast).2⟩⟩
  · exact Rules.checkDisplayName_eq_ok.1
      (Edit.check_getD hdisplay (Rules.checkDisplayName_eq_ok.2 h.displayName))
  · show ∃ i, (edit.interval <|> m.interval) = some i ∧ 5 ≤ i
    cases hset : edit.interval with
    | none => exact (h.future hfuture).1
    | some i =>
      rw [hset] at hinterval
      exact ⟨i, rfl, (Edit.checkInterval_eq_ok.1 hinterval).2⟩
  · show (edit.interval <|> m.interval) = none
    cases hset : edit.interval with
    | none => exact (h.past hpast).1
    | some i =>
      -- only a future monitor is given an interval
      rw [hset] at hinterval
      have hfuture : m.kind = .future := (Edit.checkInterval_eq_ok.1 hinterval).1
      cases hfuture.symm.trans (show m.kind = .past from hpast)

end Monitor.IsWellFormed

/-! ## Every step -/

/-- A past monitor that is not due is never rescheduled. -/
theorem Call.Reschedules.isFuture_or {m : Monitor} {c : Call} {answer : c.Answer}
    {next : Option Timestamp} (h : c.Reschedules m answer next) :
    m.isFuture = true ∨ m.nextRun.isSome = true := by
  cases h with
  | advance _ hsome => exact .inr hsome
  | suspend hfuture => exact .inl hfuture
  | resume _ hfuture => exact .inl hfuture

namespace Scene

section

variable {w w' : Commons} {g : Nat → Phase} {k : Nat} {a : Activity} {c : Call}
  {answer : c.Answer} {φ : Phase}

/-- A call of the store leaves monitors that keep to the rules, if all that are known do. -/
theorem isWellFormed_of_stored (hs : Reachable ⟨w, g⟩)
    (ih : ∀ m, Knows ⟨w, g⟩ m → m.IsWellFormed) (hpassage : Passage a (g k) c answer φ)
    (hw : w.Answers k c answer w') {m' : Monitor} (hm' : m' ∈ w'.store.monitors) :
    m'.IsWellFormed := by
  obtain ⟨home, hid⟩ := hs.identities
  by_cases hcreate : c = .store (.createMonitor m')
  · subst hcreate
    have hdrafted : g k = .drafted m' := hpassage.createMonitor.1
    have hknown : m' ∈ (g k).monitors := hdrafted ▸ .head _
    exact ih m' (.inr ⟨k, hknown⟩)
  · rcases hw.mem_monitors hm' with hc | ⟨m, hm, rfl | ⟨d, rfl, hrewrites⟩⟩
    · exact absurd hc hcreate
    · exact ih m' (.inl hm)
    · have hwell : m.IsWellFormed := ih m (.inl hm)
      -- a past monitor is not due, so nothing reschedules it
      have hpast : m.kind = .past → m'.nextRun = none := by
        intro hkind
        have hnone : m.nextRun = none := (hwell.past hkind).2.1
        rcases hw.reschedules hid.nodup hm hm' hrewrites.id_eq hcreate with hsame | hmoved
        · exact hsame.trans hnone
        · rcases hmoved.isFuture_or with hfuture | hsome
          · cases hkind.symm.trans (Monitor.isFuture_iff.1 hfuture)
          · rw [hnone] at hsome
            cases hsome
      cases hrewrites with
      | same => exact hwell
      | @definition d _ heq =>
        obtain ⟨m₀, now, edit, hpoised, rfl, hcheck, rfl⟩ := hpassage.updateDefinition
        have hknown : Knows ⟨w, g⟩ m₀ := .inr ⟨k, show m₀ ∈ (g k).monitors from hpoised ▸ .head _⟩
        have horigin : m.origin = m₀.origin := (hs.fixes m₀ hknown).known m (.inl hm) heq.symm
        exact hwell.define ((ih m₀ hknown).edit hcheck now) (congrArg Origin.kind horigin).symm
      | advance next => exact hwell.reschedule hpast _
      | suspend => exact hwell.reschedule hpast _
      | resume next => exact hwell.reschedule hpast _

end

/-- Whatever is known after a step keeps to the rules, if all that was known before does. -/
theorem Step.isWellFormed {s s' : Scene} {e : Event} (hstep : Step s e s') (hs : s.Reachable)
    (ih : ∀ m, s.Knows m → m.IsWellFormed) {m' : Monitor} (hm' : s'.Knows m') :
    m'.IsWellFormed := by
  rcases hstep.call_or_rests with ⟨i, a, c, answer, rfl⟩ | ⟨-, hrests⟩
  · cases hstep with
    | @call w w' g _ _ _ _ φ hpassage hw =>
      rcases hm' with hstored | ⟨k, hknown⟩
      · exact isWellFormed_of_stored hs ih hpassage hw hstored
      · rcases Phase.of_update (m' ∈ ·.monitors) hknown with ⟨rfl, hφ⟩ | ⟨-, hknown⟩
        · rcases hpassage.monitors hw hφ with hold | hstored | ⟨rfl, -, -⟩
          · exact ih m' (.inr ⟨k, hold⟩)
          · exact ih m' (.inl hstored)
          · obtain ⟨_, _, request, _, _, _, _, -, -, hcheck, rfl⟩ := hpassage.drafted
            exact request.toMonitor_isWellFormed hcheck
        · exact ih m' (.inr ⟨k, hknown⟩)
  · exact ih m' (hm'.of_rests hrests)

/-- In every reachable scene all monitors that are known keep to the rules. -/
theorem Reachable.isWellFormed {s : Scene} (h : s.Reachable) :
    ∀ m, s.Knows m → m.IsWellFormed := by
  refine h.invariant (I := fun s => ∀ m, s.Knows m → m.IsWellFormed) (fun w hstore _ m hm => ?_)
    fun hs ih hstep _ hm' => hstep.isWellFormed hs ih hm'
  rcases hm with hstored | ⟨k, hknown⟩
  · exact absurd (hstore ▸ hstored) List.not_mem_nil
  · exact absurd hknown List.not_mem_nil

end Scene

/-! ## The statement -/

namespace Site

/-- At every reachable site each stored monitor keeps to the rules. It has the same window and
whatever else it was created with for as long as it is stored, and a past monitor is never due. -/
theorem stored_monitors_wellFormed {s : Site} (hs : s.Reachable) :
    ∀ m ∈ s.commons.store.monitors, m.IsWellFormed ∧
      ∀ s' es, s.History es s' → ∀ m' ∈ s'.commons.store.monitors, m'.id = m.id →
        m'.origin = m.origin ∧ (m.kind = .past → m'.nextRun = none) := by
  intro m hm
  obtain ⟨g, hg, hseen⟩ := hs.exists_scene
  have hknown : g.Knows m := .inl (hseen.commons ▸ hm)
  refine ⟨hg.isWellFormed m hknown, fun s' es hes m' hm' heq => ?_⟩
  obtain ⟨g', hg', hseen'⟩ := hseen.history hes
  have hknown' : g'.Knows m' := .inl (hseen'.commons ▸ hm')
  have horigin : m'.origin = m.origin :=
    ((hg.fixes m hknown).history hg').known m' hknown' heq
  refine ⟨horigin, fun hpast => ?_⟩
  have hkind : m'.kind = .past := (congrArg Origin.kind horigin).trans hpast
  exact (((hg.history hg').isWellFormed m' hknown').past hkind).2.1

/-- A past monitor is created and its run submitted. -/
def pastCreation : List Turn :=
  Turn.alone (.create "evaluation" "acme" (.tone "tone" (some ⟨⟨0, 5⟩, ⟨3600, 0⟩⟩))) 0 11

/-- Of a past monitor whose window was asked for with a part of a second. -/
theorem stored_monitors_wellFormed_past :
    let s := ((holding [] ⟨7200, 0⟩).after .accepting pastCreation).2
    s.Reachable ∧ (∀ task ∈ s.tasks, task.HasSucceeded) ∧
      ∃ m ∈ s.commons.store.monitors, m.kind = .past ∧ m.IsWellFormed ∧
        ∀ s' es, s.History es s' → ∀ m' ∈ s'.commons.store.monitors, m'.id = m.id →
          m'.origin = m.origin ∧ (m.kind = .past → m'.nextRun = none) := by
  intro s
  have hs : s.Reachable := reachable_after (by decide +kernel)
  have hpast : ∃ m ∈ s.commons.store.monitors, m.kind = .past := by decide +kernel
  obtain ⟨m, hm, hkind⟩ := hpast
  exact ⟨hs, by decide +kernel, m, hm, hkind, stored_monitors_wellFormed hs m hm⟩

end Site

end TraceWatch
