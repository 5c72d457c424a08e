import TraceWatch.Proofs.Monitors.Rules
import TraceWatch.Proofs.Protocol.Identity
import TraceWatch.Proofs.Schedule.Window

/-!
# Monitors left to the scheduler

An activity spares a monitor if it does not stop, start or delete it and does not change its
interval. As long as nothing else goes on, the monitor stays in the store, stays on its schedule,
and every copy of it that a task has read shows the same interval (`Steady`). The instant at which
it is due is then moved by cycles only.
-/

namespace TraceWatch

/-! ## Sparing a monitor -/

/-- The activity does not stop, start or delete the monitor, and an edit of it that is accepted
leaves its interval as it is. -/
def Activity.Spares (m : Monitor) : Activity → Prop
  | stop org name | start org name | delete org name => ¬ (org = m.org ∧ name = m.name)
  | update org name edit =>
    org = m.org → name = m.name → edit.check m = .ok () →
      edit.interval = none ∨ edit.interval = m.interval
  | _ => True

/-- The clock is not set to anything but a proper instant. -/
def Event.IsPunctual : Event → Prop
  | tick t => t.IsProper
  | _ => True

/-- Whatever happens is part of an activity that spares the monitor, and the clock is set to proper
instants. -/
def Event.Spares (m : Monitor) : Event → Prop
  | tick t => t.IsProper
  | begins a | call _ a _ _ => a.Spares m
  | drops _ => True

instance (m : Monitor) : (a : Activity) → Decidable (a.Spares m)
  | .stop _ _ | .start _ _ | .delete _ _ => inferInstanceAs (Decidable (¬ _))
  | .update _ _ _ => inferInstanceAs (Decidable (_ → _ → _ → _ ∨ _))
  | .cycle _ | .create _ _ _ | .get _ _ | .list _ _ | .runs _ _ _ | .rerun _ _ _ _ | .logs _ _ _ =>
    .isTrue trivial

instance (m : Monitor) : (e : Event) → Decidable (e.Spares m)
  | .tick _ => inferInstanceAs (Decidable (_ < _))
  | .begins a | .call _ a _ _ => inferInstanceAs (Decidable (a.Spares m))
  | .drops _ => .isTrue trivial

instance : (e : Event) → Decidable e.IsPunctual
  | .tick _ => inferInstanceAs (Decidable (_ < _))
  | .begins _ | .call _ _ _ _ | .drops _ => .isTrue trivial

theorem Event.Spares.isPunctual {m : Monitor} {e : Event} (h : e.Spares m) : e.IsPunctual := by
  cases e with
  | tick => exact h
  | _ => trivial

namespace Edit

/-- An edit that is accepted for some monitor and sets an interval is accepted for every future
one. -/
theorem check_of_isFuture {edit : Edit} {m m' : Monitor} {minutes : Int}
    (h : edit.check m' = .ok ()) (hinterval : edit.interval = some minutes)
    (hm : m.isFuture = true) : edit.check m = .ok () := by
  obtain ⟨hname, hevaluators, hrate, hminutes⟩ := check_eq_ok.1 h
  refine check_eq_ok.2 ⟨hname, hevaluators, hrate, ?_⟩
  rw [hinterval] at hminutes ⊢
  simp only [checkField, checkInterval, hm, if_true] at hminutes ⊢
  split at hminutes
  · exact hminutes
  · cases hminutes

end Edit

/-! ## Monitors under creation -/

/-- The monitor that a task is creating, from its draft until its first run is over. -/
def Phase.fosters : Phase → List Monitor
  | drafted m | created m => [m]
  | submitting .initial x _ | accepted .initial x _ _ | stamped .initial x _ _ _
  | refused .initial x _ _ => [x.monitor]
  | _ => []

/-- A task creates the monitor it was creating before, or one that it has just drafted. -/
theorem Passage.fosters {a : Activity} {φ φ' : Phase} {c : Call} {answer : c.Answer}
    {w w' : Commons} {i : Nat} (h : Passage a φ c answer φ') (hw : w.Answers i c answer w')
    {m : Monitor} (hm : m ∈ φ'.fosters) : m ∈ φ.fosters ∨ m.id ∉ w.issued := by
  cases h with
  | draft =>
    obtain rfl := List.mem_singleton.1 hm
    exact .inr hw.1
  | @reject _ k | @record _ k | @compensate _ k | @submit _ k | @stamp _ k | @refuse _ k =>
    cases k <;> first | exact .inl hm | exact absurd hm List.not_mem_nil
  | _ => first | exact .inl hm | exact absurd hm List.not_mem_nil

/-! ## The steady state -/

/-- The monitor is in the store and on its schedule; wherever it is seen, its interval is the same;
and nobody is creating it. -/
structure Steady (m : Monitor) (i : Int) (s : Scene) : Prop where
  issued : m.id ∈ s.commons.issued
  present : ∃ m' ∈ s.commons.store.monitors, m'.id = m.id
  stored : ∀ m' ∈ s.commons.store.monitors, m'.id = m.id →
    m'.interval = some i ∧ m'.nextRun.isSome = true
  known : ∀ k, ∀ m' ∈ (s.phase k).monitors, m'.id = m.id → m'.interval = some i
  unfostered : ∀ k, ∀ m' ∈ (s.phase k).fosters, m'.id ≠ m.id

/-- What a call of an activity that spares a monitor does not do to it. -/
structure Call.Leaves (m : Monitor) (i : Int) (c : Call) : Prop where
  suspend : c ≠ .store (.suspend m.id)
  resume : ∀ next, c ≠ .store (.resume m.id next)
  delete : c ≠ .store (.deleteMonitor m.id)
  create : ∀ d, c = .store (.createMonitor d) → d.id ≠ m.id
  define : ∀ d, c = .store (.updateDefinition d) → d.id = m.id → d.interval = some i

namespace Steady

variable {m : Monitor} {i : Int} {home : Uuid → String × String} {w w' : Commons}
  {g : Nat → Phase} {k : Nat} {a : Activity} {c : Call} {answer : c.Answer} {φ : Phase}

/-- An activity that spares a monitor leaves it. -/
theorem leaves (h : Steady m i ⟨w, g⟩) (hid : Identities home ⟨w, g⟩)
    (hhome : home m.id = (m.org, m.name)) (hfuture : m.isFuture = true) (hi : m.interval = some i)
    (ha : a.Spares m) (hpassage : Passage a (g k) c answer φ) : c.Leaves m i := by
  -- a monitor that a task knows by this identifier has the organization and the name
  have named : ∀ {m' : Monitor}, m' ∈ (g k).monitors → m'.id = m.id →
      m'.org = m.org ∧ m'.name = m.name :=
    fun hm' heq => (hid.known k _ hm').named heq hhome
  have poised : ∀ {m' : Monitor} {now : Timestamp}, g k = .poised m' now → m' ∈ (g k).monitors :=
    fun hk => by rw [hk]; exact .head _
  refine ⟨?_, fun next => ?_, ?_, fun d => ?_, fun d => ?_⟩
  · rintro rfl
    obtain ⟨m', now, hk, heq, rfl⟩ := hpassage.suspend
    exact ha (named (poised hk) heq.symm)
  · rintro rfl
    obtain ⟨m', hk, heq, rfl⟩ := hpassage.resume
    exact ha (named (poised hk) heq.symm)
  · rintro rfl
    rcases hpassage.deleteMonitor with ⟨m', hk, heq, -⟩ | ⟨m', runs, hk, heq, rfl, -⟩
    · exact h.unfostered k m' (by simp only [hk, Phase.fosters, List.mem_singleton]) heq.symm
    · exact ha (named (by rw [hk]; exact .head _) heq.symm)
  · rintro rfl heq
    have hk : g k = .drafted d := hpassage.createMonitor.1
    exact h.unfostered k d (by simp only [hk, Phase.fosters, List.mem_singleton]) heq
  · rintro rfl heq
    obtain ⟨m', now, edit, hk, rfl, hcheck, rfl⟩ := hpassage.updateDefinition
    obtain ⟨horg, hname⟩ := named (poised hk) heq
    have hinterval : m'.interval = some i := h.known k m' (poised hk) heq
    show (edit.interval <|> m'.interval) = some i
    cases hedit : edit.interval with
    | none => exact hinterval
    | some minutes =>
      rcases ha horg hname (Edit.check_of_isFuture hcheck hedit hfuture) with hnone | hsame
      · rw [hedit] at hnone
        cases hnone
      · exact hedit.symm.trans (hsame.trans hi)

/-- After a call that leaves a monitor, its interval is the same, and it is due when it was due
before unless its schedule has been moved on. -/
theorem stored_of_call (hw : w.Answers k c answer w') (hc : c.Leaves m i) {m' : Monitor}
    (hm' : m' ∈ w'.store.monitors) (heq : m'.id = m.id) :
    ∃ m₁ ∈ w.store.monitors, m₁.id = m.id ∧
      (m'.interval = m₁.interval ∨ m'.interval = some i) ∧
      (m'.nextRun = m₁.nextRun ∨
        ∃ next, c = .store (.advance m.id next) ∧ m'.nextRun = some next) := by
  rcases hw.mem_monitors hm' with rfl | ⟨m₁, hm₁, rfl | ⟨d, rfl, hrewrites⟩⟩
  · exact absurd heq (hc.create m' rfl)
  · exact ⟨m', hm₁, heq, .inl rfl, .inl rfl⟩
  · have heq₁ : m₁.id = m.id := hrewrites.id_eq.symm.trans heq
    refine ⟨m₁, hm₁, heq₁, ?_⟩
    cases hrewrites with
    | same => exact ⟨.inl rfl, .inl rfl⟩
    | @definition d _ hid => exact ⟨.inr (hc.define d rfl (hid.trans heq₁)), .inl rfl⟩
    | advance next => exact ⟨.inl rfl, .inr ⟨_, by rw [heq₁], rfl⟩⟩
    | suspend => exact absurd (by rw [heq₁]) hc.suspend
    | resume next => exact absurd (by rw [heq₁]) (hc.resume _)

/-- A call that leaves a monitor leaves it steady. -/
theorem call (h : Steady m i ⟨w, g⟩) (hpassage : Passage a (g k) c answer φ)
    (hw : w.Answers k c answer w') (hc : c.Leaves m i) :
    Steady m i ⟨w', Function.update g k φ⟩ := by
  obtain ⟨m₀, hm₀, heq₀⟩ := h.present
  refine ⟨hw.issued_mono h.issued, ?_, fun m' hm' heq => ?_, fun j m' hm' heq => ?_,
    fun j m' hm' => ?_⟩
  · obtain ⟨m', hm', hrewrites⟩ := hw.mem_monitors_of_mem hm₀ (heq₀ ▸ hc.delete)
      (heq₀ ▸ hc.create)
    refine ⟨m', hm', ?_⟩
    rcases hrewrites with rfl | ⟨d, -, hrewrites⟩
    · exact heq₀
    · exact hrewrites.id_eq.trans heq₀
  · obtain ⟨m₁, hm₁, heq₁, hinterval, hnext⟩ := stored_of_call hw hc hm' heq
    obtain ⟨hi, hsome⟩ := h.stored m₁ hm₁ heq₁
    constructor
    · rcases hinterval with hsame | hset
      · exact hsame.trans hi
      · exact hset
    · rcases hnext with hsame | ⟨next, -, hset⟩
      · rw [hsame]
        exact hsome
      · rw [hset]
        rfl
  · rcases Phase.of_update (m' ∈ ·.monitors) hm' with ⟨rfl, hφ⟩ | ⟨-, hm'⟩
    · rcases hpassage.monitors hw hφ with hknown | hstored | ⟨rfl, hfresh, -⟩
      · exact h.known j m' hknown heq
      · exact (h.stored m' hstored heq).1
      · exact absurd (heq ▸ h.issued) hfresh
    · exact h.known j m' hm' heq
  · rcases Phase.of_update (m' ∈ ·.fosters) hm' with ⟨rfl, hφ⟩ | ⟨-, hm'⟩
    · rcases hpassage.fosters hw hφ with hold | hfresh
      · exact h.unfostered j m' hold
      · exact fun heq => hfresh (heq ▸ h.issued)
    · exact h.unfostered j m' hm'

/-- A monitor stays steady while the scene rests. -/
theorem rests {s s' : Scene} (h : Steady m i s) (hrests : s.Rests s') : Steady m i s' := by
  refine ⟨hrests.issued ▸ h.issued, hrests.store ▸ h.present, hrests.store ▸ h.stored,
    fun k m' hm' => ?_, fun k m' hm' => ?_⟩
  · exact h.known k m' (hrests.of_phase (P := (m' ∈ ·.monitors)) List.not_mem_nil hm')
  · exact h.unfostered k m' (hrests.of_phase (P := (m' ∈ ·.fosters)) List.not_mem_nil hm')

end Steady

end TraceWatch
