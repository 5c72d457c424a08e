import TraceWatch.Proofs.Protocol.Reachable
import TraceWatch.Proofs.System.Moves

/-!
# What is fixed about a monitor

A monitor keeps what it was created with: of its fields only those that edits set, the instant at
which it is due and the instant of its last change ever change (`Monitor.origin`). That holds of the
monitor in the store and of every copy of it that a task has read, however old; so two copies under
one identifier agree in it (`Scene.Fixes`).
-/

namespace TraceWatch

/-- What a monitor is created with and keeps. -/
structure Origin where
  id : Uuid
  name : String
  kind : MonitorKind
  org : String
  project : String
  agent : String
  agentId : String
  environment : String
  environmentId : String
  traceStart : Option Timestamp
  traceEnd : Option Timestamp
  createdAt : Timestamp

/-- What the monitor was created with. -/
def Monitor.origin (m : Monitor) : Origin where
  id := m.id
  name := m.name
  kind := m.kind
  org := m.org
  project := m.project
  agent := m.agent
  agentId := m.agentId
  environment := m.environment
  environmentId := m.environmentId
  traceStart := m.traceStart
  traceEnd := m.traceEnd
  createdAt := m.createdAt

namespace Monitor

variable {m m' : Monitor}

/-- Copies that agree in what is fixed are of one monitor. -/
theorem identity_eq (h : m'.origin = m.origin) :
    m'.id = m.id ∧ m'.org = m.org ∧ m'.name = m.name :=
  ⟨congrArg Origin.id h, congrArg Origin.org h, congrArg Origin.name h⟩

/-- They are of one kind. -/
theorem isFuture_eq (h : m'.origin = m.origin) : m'.isFuture = m.isFuture := by
  have hkind : m'.kind = m.kind := congrArg Origin.kind h
  rw [isFuture, isFuture, hkind]

end Monitor

/-- No call changes what a stored monitor was created with. -/
theorem StoreCall.Rewrites.origin_eq {now : Timestamp} {c : StoreCall} {m m' : Monitor}
    (h : Rewrites now c m m') : m'.origin = m.origin := by
  cases h <;> rfl

namespace Scene

/-- The monitor is in the store, or a task has to do with it. -/
def Knows (s : Scene) (m : Monitor) : Prop :=
  m ∈ s.commons.store.monitors ∨ ∃ k, m ∈ (s.phase k).monitors

theorem Knows.issued {s : Scene} {m : Monitor} (h : s.Knows m) (hs : s.Reachable) :
    m.id ∈ s.commons.issued := by
  obtain ⟨home, hid⟩ := hs.identities
  rcases h with hstored | ⟨k, hknown⟩
  · exact (hid.stored m hstored).1
  · exact (hid.known k m hknown).1

/-- Nothing becomes known while the scene rests. -/
theorem Knows.of_rests {s s' : Scene} {m : Monitor} (h : s'.Knows m) (hrests : s.Rests s') :
    s.Knows m := by
  rcases h with hstored | ⟨k, hknown⟩
  · exact .inl (hrests.store ▸ hstored)
  · exact .inr ⟨k, hrests.of_phase (P := (m ∈ ·.monitors)) List.not_mem_nil hknown⟩

/-- With the event its caller drafts the monitor, under an identifier that nobody has had. -/
def Drafts (s : Scene) (e : Event) (s' : Scene) (m : Monitor) : Prop :=
  m.id ∉ s.commons.issued ∧ ∃ k, e.caller = some k ∧ s'.phase k = .drafted m

/-- With the event its caller has the store rewrite the monitor to the other. -/
def Rewrites (s : Scene) (e : Event) (m m' : Monitor) : Prop :=
  ∃ k a d answer φ, e = .call k a (.store d) answer ∧
    Passage a (s.phase k) (.store d) answer φ ∧ d.Rewrites s.commons.clock m m'

/-- A monitor that is known after a step was known before, or it has just been drafted, or it is
what a stored monitor has been rewritten to. -/
theorem Step.knows_cases {s s' : Scene} {e : Event} (h : Step s e s') {m' : Monitor}
    (hm' : s'.Knows m') : s.Knows m' ∨ s.Drafts e s' m' ∨
      ∃ m ∈ s.commons.store.monitors, s.Rewrites e m m' := by
  rcases h.call_or_rests with ⟨i, a, c, answer, rfl⟩ | ⟨-, hrests⟩
  · cases h with
    | @call w w' g _ _ _ _ φ hpassage hw =>
      rcases hm' with hstored | ⟨k, hknown⟩
      · rcases hw.mem_monitors hstored with rfl | ⟨m, hm, rfl | ⟨d, rfl, hrewrites⟩⟩
        · have hdrafted : g i = .drafted m' := hpassage.createMonitor.1
          have hknown : m' ∈ (g i).monitors := hdrafted ▸ .head _
          exact .inl (.inr ⟨i, hknown⟩)
        · exact .inl (.inl hm)
        · exact .inr (.inr ⟨m, hm, i, a, d, answer, φ, rfl, hpassage, hrewrites⟩)
      · rcases Phase.of_update (m' ∈ ·.monitors) hknown with ⟨rfl, hφ⟩ | ⟨-, hknown⟩
        · rcases hpassage.monitors hw hφ with hold | hstored | ⟨rfl, hfresh, -⟩
          · exact .inl (.inr ⟨k, hold⟩)
          · exact .inl (.inl hstored)
          · exact .inr (.inl ⟨hfresh, k, rfl, Function.update_self _ _ _⟩)
        · exact .inl (.inr ⟨k, hknown⟩)
  · exact .inl (hm'.of_rests hrests)

/-- A monitor is drafted by a creation that has read the clock and whose request has passed its
check. -/
theorem Drafts.exists_request {s s' : Scene} {e : Event} {m : Monitor} (h : s.Drafts e s' m)
    (hstep : Step s e s') : ∃ k template org request c answer now id agentId environmentId,
      e = .call k (.create template org request) c answer ∧ s.phase k = .dated now ∧
        request.truncate.check now = .ok () ∧
          m = request.truncate.toMonitor id org agentId environmentId now := by
  obtain ⟨-, k, hcaller, hphase⟩ := h
  cases hstep with
  | tick | begins | drops => cases hcaller
  | call hpassage _ =>
    obtain rfl := Option.some.inj hcaller
    dsimp only at hphase
    rw [Function.update_self] at hphase
    subst hphase
    obtain ⟨template, org, request, now, id, agentId, environmentId, rfl, hdated, hcheck, rfl⟩ :=
      hpassage.drafted
    exact ⟨_, template, org, request, _, _, now, id, agentId, environmentId, rfl, hdated, hcheck,
      rfl⟩

/-- A monitor that is known after a step has the origin of one known before, or it has just been
drafted. -/
theorem Step.knows {s s' : Scene} {e : Event} (h : Step s e s') {m' : Monitor}
    (hm' : s'.Knows m') : (∃ m, s.Knows m ∧ m.origin = m'.origin) ∨ s.Drafts e s' m' := by
  rcases h.knows_cases hm' with hknown | hdrafts | ⟨m, hm, _, _, _, _, _, -, -, hrewrites⟩
  · exact .inl ⟨m', hknown, rfl⟩
  · exact .inr hdrafts
  · exact .inl ⟨m, .inl hm, hrewrites.origin_eq.symm⟩

/-- Whatever is known under the identifier has the origin. -/
structure Fixes (s : Scene) (o : Origin) : Prop where
  issued : o.id ∈ s.commons.issued
  known : ∀ m, s.Knows m → m.id = o.id → m.origin = o

theorem Fixes.step {s s' : Scene} {e : Event} {o : Origin} (h : s.Fixes o) (hstep : Step s e s') :
    s'.Fixes o := by
  refine ⟨hstep.issued_mono h.issued, fun m' hm' heq => ?_⟩
  rcases hstep.knows hm' with ⟨m, hm, horigin⟩ | ⟨hfresh, -⟩
  · rw [← horigin]
    exact h.known m hm ((congrArg Origin.id horigin).trans heq)
  · exact absurd h.issued (heq ▸ hfresh)

theorem Fixes.history {s s' : Scene} {es : List Event} {o : Origin} (h : s.Fixes o)
    (hes : s.History es s') : s'.Fixes o :=
  hes.preserves Fixes.step h

/-- A monitor that has just been drafted is the only one known under its identifier. -/
theorem Drafts.fixes {s s' : Scene} {e : Event} {m : Monitor} (h : s.Drafts e s' m)
    (hs : s.Reachable) (hstep : Step s e s') : s'.Fixes m.origin := by
  obtain ⟨hfresh, k, hcaller, hphase⟩ := h
  have hm : s'.Knows m := .inr ⟨k, by rw [hphase]; exact .head _⟩
  refine ⟨hm.issued (hs.step hstep), fun m' hm' heq => ?_⟩
  rcases hstep.knows hm' with ⟨m₁, hm₁, horigin⟩ | ⟨-, k', hcaller', hphase'⟩
  · refine absurd (hm₁.issued hs) ?_
    rwa [show m₁.id = m.id from (congrArg Origin.id horigin).trans heq]
  · obtain rfl : k' = k := Option.some.inj (hcaller'.symm.trans hcaller)
    cases hphase'.symm.trans hphase
    rfl

/-- In every reachable scene, all that is known under the identifier of a known monitor has its
origin. -/
theorem Reachable.fixes {s : Scene} (h : s.Reachable) :
    ∀ m, s.Knows m → s.Fixes m.origin := by
  refine h.invariant (I := fun s => ∀ m, s.Knows m → s.Fixes m.origin) (fun w hstore _ m hm => ?_)
    fun hs ih hstep m' hm' => ?_
  · rcases hm with hstored | ⟨k, hknown⟩
    · exact absurd (hstore ▸ hstored) List.not_mem_nil
    · exact absurd hknown List.not_mem_nil
  · rcases hstep.knows hm' with ⟨m, hm, horigin⟩ | hdrafts
    · exact horigin ▸ (ih m hm).step hstep
    · exact hdrafts.fixes hs hstep

end Scene

end TraceWatch
