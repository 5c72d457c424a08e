import Mathlib.Data.List.Induction
import Mathlib.Logic.Function.Basic
import TraceWatch.Proofs.Protocol.Operations
import TraceWatch.Proofs.System.Commons

/-!
# Scenes

A scene is a site of which only the phases of the tasks are looked at. Its steps are the passages of
the protocol, answered as the commons are bound to. Every history of a site is a history of scenes
with the same events and the same commons (`Site.History.exists_scene`), so an invariant of scenes
holds at every site; it is proved by going through the passages.
-/

namespace TraceWatch

/-- What holds of a task's phase after a call holds of the phase that the call leads to, if the task
has made it, and of the phase it was in before, if not. -/
theorem Phase.of_update (P : Phase → Prop) {g : Nat → Phase} {i k : Nat} {φ : Phase}
    (h : P (Function.update g k φ i)) : (i = k ∧ P φ) ∨ (i ≠ k ∧ P (g i)) := by
  by_cases hik : i = k
  · subst hik
    exact .inl ⟨rfl, by rwa [Function.update_self] at h⟩
  · exact .inr ⟨hik, by rwa [Function.update_of_ne hik] at h⟩

/-- What holds of the phase that a call leads to, and held of the phases of the tasks that have not
made it, holds of the phase of every task after the call. -/
theorem Phase.to_update (P : Phase → Prop) {g : Nat → Phase} {i k : Nat} {φ : Phase}
    (hcaller : i = k → P φ) (hother : i ≠ k → P (g i)) : P (Function.update g k φ i) := by
  by_cases hik : i = k
  · subst hik
    rw [Function.update_self]
    exact hcaller rfl
  · rw [Function.update_of_ne hik]
    exact hother hik

/-- What the tasks share, and the phase of each task. A task that has not begun is idle. -/
structure Scene where
  commons : Commons
  phase : Nat → Phase

namespace Scene

/-- One thing happens. -/
inductive Step : Scene → Event → Scene → Prop
  | tick (w : Commons) (g : Nat → Phase) (t : Timestamp) :
    Step ⟨w, g⟩ (.tick t) ⟨{ w with clock := t }, g⟩
  | begins (w : Commons) (g : Nat → Phase) (a : Activity) : Step ⟨w, g⟩ (.begins a) ⟨w, g⟩
  | call {w w' : Commons} {g : Nat → Phase} {i : Nat} {a : Activity} {c : Call}
    {answer : c.Answer} {φ : Phase} :
    Passage a (g i) c answer φ → w.Answers i c answer w' →
      Step ⟨w, g⟩ (.call i a c answer) ⟨w', Function.update g i φ⟩
  | drops {w : Commons} {g : Nat → Phase} {i : Nat} : (g i).MayHalt →
      Step ⟨w, g⟩ (.drops i) ⟨w.freeLock i, Function.update g i .idle⟩

/-- The store and the identifiers are the same, and each task is in the phase it was in, unless it
has left the calendar. -/
structure Rests (s s' : Scene) : Prop where
  store : s'.commons.store = s.commons.store
  issued : s'.commons.issued = s.commons.issued
  phase : ∀ i, s'.phase i = s.phase i ∨ ((s.phase i).MayHalt ∧ s'.phase i = .idle)

namespace Rests

variable {s s' : Scene} {P : Phase → Prop} {i : Nat}

/-- While the scene rests, no task gets what an idle one does not have. -/
theorem of_phase (h : s.Rests s') (hidle : ¬ P .idle) (hi : P (s'.phase i)) : P (s.phase i) := by
  rcases h.phase i with heq | ⟨-, heq⟩
  · exact heq ▸ hi
  · exact absurd (heq ▸ hi) hidle

/-- While the scene rests, a task keeps what an idle one has as well. -/
theorem to_phase (h : s.Rests s') (hidle : P .idle) (hi : P (s.phase i)) : P (s'.phase i) := by
  rcases h.phase i with heq | ⟨-, heq⟩
  · exact heq ▸ hi
  · exact heq ▸ hidle

/-- While the scene rests, a task that may not leave the calendar stays in its phase. -/
theorem phase_eq (h : s.Rests s') (hi : ¬ (s.phase i).MayHalt) : s'.phase i = s.phase i :=
  (h.phase i).resolve_right fun hhalt => hi hhalt.1

end Rests

/-- Whatever happens is a call, or the scene rests. -/
theorem Step.call_or_rests {s s' : Scene} {e : Event} (h : Step s e s') :
    (∃ i a c answer, e = .call i a c answer) ∨
      ((∀ i a c answer, e ≠ .call i a c answer) ∧ s.Rests s') := by
  cases h with
  | tick w g t => exact .inr ⟨fun _ _ _ _ heq => (by cases heq), rfl, rfl, fun _ => .inl rfl⟩
  | begins w g a => exact .inr ⟨fun _ _ _ _ heq => (by cases heq), rfl, rfl, fun _ => .inl rfl⟩
  | call => exact .inl ⟨_, _, _, _, rfl⟩
  | @drops w g i hhalt =>
    refine .inr ⟨fun _ _ _ _ heq => (by cases heq), w.freeLock_store i, w.freeLock_issued i,
      fun j => ?_⟩
    by_cases hij : j = i
    · subst hij
      exact .inr ⟨hhalt, Function.update_self _ _ _⟩
    · exact .inl (Function.update_of_ne hij _ _)

/-- The clock shows what it has shown before, or what it has just been set to. -/
theorem Step.clock {P : Timestamp → Prop} {s s' : Scene} {e : Event} (h : Step s e s')
    (he : ∀ t, e = .tick t → P t) (hclock : P s.commons.clock) : P s'.commons.clock := by
  cases h with
  | tick w g t => exact he t rfl
  | begins w g a => exact hclock
  | @call w w' _ _ _ _ _ _ _ hw =>
    have heq : w'.clock = w.clock := hw.clock_eq
    exact heq ▸ hclock
  | @drops w g i => exact w.freeLock_clock i ▸ hclock

/-- One thing after the other happens, the latest last. -/
inductive History (s : Scene) : List Event → Scene → Prop
  | nil : History s [] s
  | snoc {es : List Event} {e : Event} {s' s'' : Scene} :
    History s es s' → Step s' e s'' → History s (es ++ [e]) s''

theorem History.append {s s' : Scene} {es : List Event} (h : History s es s') :
    ∀ {es' : List Event} {s'' : Scene}, History s' es' s'' → History s (es ++ es') s''
  | _, _, .nil => by rw [List.append_nil]; exact h
  | _, _, .snoc h' hstep => by rw [← List.append_assoc]; exact .snoc (h.append h') hstep

/-- The scene at the beginning of a site. -/
def ofCommons (w : Commons) : Scene := ⟨w, fun _ => .idle⟩

/-- A history that ends with one event comes to its last step. -/
theorem History.of_snoc {s s'' : Scene} {es : List Event} {e : Event}
    (h : History s (es ++ [e]) s'') : ∃ s', History s es s' ∧ Step s' e s'' := by
  generalize heq : es ++ [e] = all at h
  cases h with
  | nil => simp at heq
  | snoc h hstep =>
    obtain ⟨rfl, hlast⟩ := List.append_inj' heq rfl
    cases hlast
    exact ⟨_, h, hstep⟩

/-- A history of one event is a step. -/
theorem History.of_singleton {s s' : Scene} {e : Event} (h : History s [e] s') : Step s e s' := by
  rw [← List.nil_append [e]] at h
  obtain ⟨s₁, hnil, hstep⟩ := h.of_snoc
  generalize heq : ([] : List Event) = es at hnil
  cases hnil with
  | nil => exact hstep
  | snoc => simp at heq

/-- A history can be stopped and gone on with at any event. -/
theorem History.split {s s'' : Scene} {es : List Event} : ∀ {es' : List Event},
    History s (es ++ es') s'' → ∃ s', History s es s' ∧ History s' es' s'' := by
  intro es'
  induction es' using List.reverseRecOn generalizing s'' with
  | nil => exact fun h => ⟨s'', by simpa using h, .nil⟩
  | append_singleton es' e ih =>
    intro h
    rw [← List.append_assoc] at h
    obtain ⟨s', h, hstep⟩ := h.of_snoc
    obtain ⟨s₁, h₁, h₂⟩ := ih h
    exact ⟨s₁, h₁, .snoc h₂ hstep⟩

/-- A history comes to each of its events, and goes on after it. -/
theorem History.split_cons {s s' : Scene} {es es' : List Event} {e : Event}
    (h : History s (es ++ e :: es') s') :
    ∃ s₁ s₂, History s es s₁ ∧ Step s₁ e s₂ ∧ History s₂ es' s' := by
  obtain ⟨s₁, hbefore, hrest⟩ := h.split
  rw [← List.singleton_append] at hrest
  obtain ⟨s₂, hevent, hafter⟩ := hrest.split
  exact ⟨s₁, s₂, hbefore, hevent.of_singleton, hafter⟩

/-- What every step preserves, every history preserves. -/
theorem History.preserves {I : Scene → Prop}
    (hstep : ∀ {s e s'}, I s → Step s e s' → I s') {s s' : Scene} {es : List Event}
    (h : History s es s') (hs : I s) : I s' := by
  induction h with
  | nil => exact hs
  | snoc _ hlast ih => exact hstep ih hlast

end Scene

/-! ## From sites to scenes -/

namespace Site

/-- A scene is true to a site: the commons are the same, and what is left of each task follows the
protocol from the phase it is seen in. -/
structure SeenAs (s : Site) (g : Scene) : Prop where
  commons : g.commons = s.commons
  follows : ∀ (i : Nat) (a : Activity) (rest : Program (Except MonitorError a.Result)),
    s.tasks[i]? = some ⟨a, rest⟩ → rest.Follows a a.MayEnd (g.phase i)
  waiting : ∀ i, s.tasks.length ≤ i → g.phase i = .idle

/-- A scene stays true to a site when one task goes on, if what is left of it follows the protocol
from the phase it is seen in then. -/
theorem SeenAs.set {w w' : Commons} {tasks : List Task} {phase : Nat → Phase}
    (h : SeenAs ⟨w, tasks⟩ ⟨w, phase⟩) {i : Nat} {a : Activity}
    {rest : Program (Except MonitorError a.Result)} {φ : Phase} (hlt : i < tasks.length)
    (hrest : rest.Follows a a.MayEnd φ) :
    SeenAs ⟨w', tasks.set i ⟨a, rest⟩⟩ ⟨w', Function.update phase i φ⟩ := by
  refine ⟨rfl, fun j b rest' hj => ?_, fun j hj => ?_⟩
  · by_cases hij : i = j
    · subst hij
      rw [List.getElem?_set_self hlt] at hj
      cases hj
      dsimp only
      rwa [Function.update_self]
    · rw [List.getElem?_set_ne hij] at hj
      dsimp only
      rw [Function.update_of_ne (Ne.symm hij)]
      exact h.follows j b rest' hj
  · rw [List.length_set] at hj
    dsimp only
    rw [Function.update_of_ne (by omega)]
    exact h.waiting j hj

/-- Each step of a site is a step of the scene. -/
theorem SeenAs.step {s s' : Site} {g : Scene} {e : Event} (h : s.SeenAs g) (hstep : Step s e s') :
    ∃ g', g.Step e g' ∧ s'.SeenAs g' := by
  obtain ⟨w, phase⟩ := g
  obtain ⟨rfl, hfollows, hwaiting⟩ := id h
  cases hstep with
  | tick w tasks t => exact ⟨_, .tick w phase t, rfl, hfollows, hwaiting⟩
  | begins w tasks a =>
    refine ⟨_, .begins w phase a, rfl, fun i b rest hi => ?_, fun i hi => hwaiting i ?_⟩
    · rcases of_getElem?_concat hi with hi | ⟨rfl, heq⟩
      · exact hfollows i b rest hi
      · cases heq
        have hidle : phase tasks.length = .idle := hwaiting _ (Nat.le_refl _)
        dsimp only
        rw [hidle]
        exact a.follows
    · rw [List.length_append] at hi
      exact Nat.le_of_add_right_le hi
  | @call w w' tasks i a c next answer htask hanswer =>
    obtain ⟨φ, hpassage, hnext⟩ := hfollows i a _ htask answer ⟨w, i, w', hanswer⟩
    exact ⟨_, .call hpassage hanswer, h.set (List.getElem?_eq_some_iff.1 htask).1 hnext⟩
  | @drops w tasks i a htask =>
    obtain ⟨hlt, heq⟩ := List.getElem?_eq_some_iff.1 htask
    have hset : tasks.set i ⟨a, .halt⟩ = tasks := by rw [← heq, List.set_getElem_self]
    refine ⟨_, .drops (hfollows i a _ htask), ?_⟩
    rw [← hset]
    exact h.set hlt trivial

/-- Every history of a site is one of scenes. -/
theorem History.exists_scene {s s' : Site} {es : List Event} (hs : s.tasks = [])
    (h : History s es s') : ∃ g, (Scene.ofCommons s.commons).History es g ∧ s'.SeenAs g := by
  induction h with
  | nil =>
    refine ⟨_, .nil, rfl, fun i a rest hi => ?_, fun _ _ => rfl⟩
    rw [hs] at hi
    cases hi
  | snoc _ hstep ih =>
    obtain ⟨g, hg, hseen⟩ := ih
    obtain ⟨g', hg', hseen'⟩ := hseen.step hstep
    exact ⟨g', .snoc hg hg', hseen'⟩

end Site

end TraceWatch
