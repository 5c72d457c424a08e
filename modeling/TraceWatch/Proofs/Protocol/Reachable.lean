import TraceWatch.Proofs.Protocol.Identity
import TraceWatch.Proofs.System.Replay

/-!
# Reachable states

A state is reachable if it comes about from a new site, whatever happens and in whatever order. Each
reachable site is seen as a reachable scene (`Site.Reachable.exists_scene`), and what holds of every
reachable scene is proved by `Scene.Reachable.invariant`, one step at a time. So an invariant may
build on the ones before it; the first is that identifiers are kept apart.
-/

namespace TraceWatch

/-! ## Sites -/

namespace Site

/-- A site at its beginning, with nothing in its store. -/
structure IsNew (s : Site) : Prop where
  tasks : s.tasks = []
  holder : s.commons.holder = none
  store : s.commons.store = .empty

/-- The site comes about from a new one. -/
def Reachable (s : Site) : Prop := ∃ (s₀ : Site) (es : List Event), s₀.IsNew ∧ s₀.History es s

theorem IsNew.reachable {s : Site} (h : s.IsNew) : s.Reachable := ⟨s, [], h, .nil⟩

/-- What comes about from a reachable site is reachable. -/
theorem Reachable.history {s s' : Site} {es : List Event} (h : s.Reachable)
    (hes : s.History es s') : s'.Reachable := by
  obtain ⟨s₀, es₀, hs₀, hes₀⟩ := h
  exact ⟨s₀, es₀ ++ es, hs₀, hes₀.append hes⟩

/-- A site that holds no monitors is new, and what happens there under a schedule is reachable. -/
theorem reachable_after {env : Surroundings} {turns : List Turn} {clock : Timestamp}
    (h : (replay env turns (holding [] clock)).isSome = true) :
    ((holding [] clock).after env turns).2.Reachable :=
  (IsNew.reachable ⟨rfl, rfl, rfl⟩).history (history_after h)

end Site

/-! ## Scenes -/

namespace Scene

/-- The scene comes about from one without tasks whose store is empty. -/
def Reachable (s : Scene) : Prop :=
  ∃ w es, w.store = .empty ∧ w.holder = none ∧ (ofCommons w).History es s

theorem Reachable.step {s s' : Scene} {e : Event} (h : s.Reachable) (hstep : Step s e s') :
    s'.Reachable := by
  obtain ⟨w, es, hstore, hholder, hes⟩ := h
  exact ⟨w, es ++ [e], hstore, hholder, .snoc hes hstep⟩

theorem Reachable.history {s s' : Scene} {es : List Event} (h : s.Reachable)
    (hes : s.History es s') : s'.Reachable := by
  induction hes with
  | nil => exact h
  | snoc _ hstep ih => exact ih.step hstep

/-- What holds at the beginning and is kept by every step holds of every reachable scene. -/
theorem Reachable.invariant {I : Scene → Prop}
    (hstart : ∀ w : Commons, w.store = .empty → w.holder = none → I (ofCommons w))
    (hstep : ∀ {s e s'}, s.Reachable → I s → Step s e s' → I s') {s : Scene}
    (h : s.Reachable) : I s := by
  obtain ⟨w, es, hstore, hholder, hes⟩ := h
  induction hes with
  | nil => exact hstart w hstore hholder
  | snoc hbefore hlast ih => exact hstep ⟨w, _, hstore, hholder, hbefore⟩ ih hlast

/-- What holds of a reachable scene and is kept by every step of a kind holds after a history of
such steps. -/
theorem Reachable.preserves {I : Scene → Prop} {P : Event → Prop} {s s' : Scene}
    {es : List Event} (hs : s.Reachable)
    (hstep : ∀ {s e s'}, s.Reachable → I s → Step s e s' → P e → I s')
    (h : s.History es s') (hes : ∀ e ∈ es, P e) (hI : I s) : I s' := by
  induction h with
  | nil => exact hI
  | snoc hbefore hlast ih =>
    have hbefore' := ih fun e he => hes e (List.mem_append_left _ he)
    exact hstep (hs.history hbefore) hbefore' hlast (hes _ (List.mem_append_right _ (.head _)))

/-- In every reachable scene identifiers are kept apart. -/
theorem Reachable.identities {s : Scene} (h : s.Reachable) : ∃ home, Identities home s := by
  refine h.invariant (I := fun s => ∃ home, Identities home s) (fun w hstore hholder => ?_) ?_
  · refine Identities.start (s := ⟨w, []⟩) ⟨rfl, hholder, ?_, ?_, ?_⟩
    · rw [hstore]
      exact List.nodup_nil
    · rw [hstore]
      exact List.forall_mem_nil _
    · rw [hstore]
      exact List.forall_mem_nil _
  · rintro s e s' - ⟨home, hid⟩ hstep
    obtain ⟨home', hid', -⟩ := hid.step hstep
    exact ⟨home', hid'⟩

/-- In every reachable scene only the holder of the lock is under it. -/
theorem Reachable.exclusive {s : Scene} (h : s.Reachable) : s.Exclusive :=
  h.invariant (fun w _ _ => .start w) fun _ hs hstep => hs.step hstep

/-- A history that holds an event comes to it, and goes on after it. -/
theorem History.of_mem {s s' : Scene} {es : List Event} {e : Event} (h : s.History es s')
    (he : e ∈ es) : ∃ es₁ s₁ s₂ es₂, es = es₁ ++ e :: es₂ ∧ s.History es₁ s₁ ∧ Step s₁ e s₂ ∧
      s₂.History es₂ s' := by
  obtain ⟨es₁, es₂, rfl⟩ := List.append_of_mem he
  obtain ⟨s₁, s₂, hbefore, hstep, hafter⟩ := h.split_cons
  exact ⟨es₁, s₁, s₂, es₂, rfl, hbefore, hstep, hafter⟩

/-- No identifier is forgotten. -/
theorem Step.issued_mono {s s' : Scene} {e : Event} (h : Step s e s') {id : Uuid}
    (hid : id ∈ s.commons.issued) : id ∈ s'.commons.issued := by
  rcases h.call_or_rests with ⟨i, a, c, answer, rfl⟩ | ⟨-, hrests⟩
  · cases h with
    | call _ hw => exact hw.issued_mono hid
  · exact hrests.issued ▸ hid

end Scene

/-! ## From sites to scenes -/

namespace Site

/-- A scene stays true to a site through a history. -/
theorem SeenAs.history {s s' : Site} {g : Scene} {es : List Event} (h : s.SeenAs g)
    (hes : s.History es s') : ∃ g', g.History es g' ∧ s'.SeenAs g' := by
  induction hes with
  | nil => exact ⟨g, .nil, h⟩
  | snoc _ hstep ih =>
    obtain ⟨g', hg', hseen⟩ := ih
    obtain ⟨g'', hg'', hseen'⟩ := hseen.step hstep
    exact ⟨g'', .snoc hg' hg'', hseen'⟩

/-- A reachable site is seen as a reachable scene. -/
theorem Reachable.exists_scene {s : Site} (h : s.Reachable) :
    ∃ g : Scene, g.Reachable ∧ s.SeenAs g := by
  obtain ⟨s₀, es, hs₀, hes⟩ := h
  obtain ⟨g, hg, hseen⟩ := hes.exists_scene hs₀.tasks
  exact ⟨g, ⟨_, es, hs₀.store, hs₀.holder, hg⟩, hseen⟩

end Site

end TraceWatch
