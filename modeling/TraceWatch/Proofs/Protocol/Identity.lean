import TraceWatch.Proofs.Protocol.Inversion
import TraceWatch.Proofs.Protocol.Scene
import TraceWatch.Proofs.System.Commons

/-!
# The lock and the identifiers

Two things hold of every scene that begins at a fresh site. Only the task that holds the lock is in
the middle of a cycle (`Scene.Exclusive`). And an identifier stands for one thing (`Identities`):
whatever is in the store or known to a task has an identifier that was handed out, the organization
and the name of a monitor are determined by its identifier, and an identifier that a task has drawn
for a monitor or a run of its own is used by nothing else and known to nobody else.
-/

namespace TraceWatch

/-! ## The lock -/

/-- A trigger is carried out under the lock. -/
def Purpose.HoldsLock : Purpose → Prop
  | trigger _ _ _ => True
  | initial | rerun => False

/-- The phases of a cycle under the lock. -/
def Phase.HoldsLock : Phase → Prop
  | locked | timed _ | rounds _ _ | advancing _ _ _ _ | tending _ | told _ _ _ => True
  | submitting k _ _ | accepted k _ _ _ | stamped k _ _ _ _ | refused k _ _ _ => k.HoldsLock
  | _ => False

section

variable {a : Activity} {φ φ' : Phase} {c : Call} {answer : c.Answer}

/-- A passage other than the taking of the lock leads under the lock only from there. -/
theorem Passage.holdsLock (h : Passage a φ c answer φ') (hc : c ≠ .acquireLock)
    (hφ' : φ'.HoldsLock) : φ.HoldsLock := by
  cases h with
  | @reject _ k | @record _ k | @compensate _ k =>
    cases k with
    | trigger => trivial
    | initial | rerun => exact False.elim hφ'
  | lock | busy => exact absurd rfl hc
  | _ => first | exact hφ' | trivial

end

namespace Scene

/-- Only the holder of the lock is in a phase under it. -/
def Exclusive (s : Scene) : Prop := ∀ i, (s.phase i).HoldsLock → s.commons.holder = some i

/-- No two tasks are under the lock. -/
theorem Exclusive.eq {s : Scene} (h : s.Exclusive) {i j : Nat} (hi : (s.phase i).HoldsLock)
    (hj : (s.phase j).HoldsLock) : i = j :=
  Option.some.inj ((h i hi).symm.trans (h j hj))

/-- A task that is not under the lock may let go of it without harm to the others. -/
theorem Exclusive.freeLock {w : Commons} {g : Nat → Phase} (h : Exclusive ⟨w, g⟩) (i : Nat) :
    Exclusive ⟨w.freeLock i, Function.update g i .idle⟩ := by
  intro j hj
  rcases Phase.of_update Phase.HoldsLock hj with ⟨rfl, hφ⟩ | ⟨hij, hj⟩
  · exact False.elim hφ
  · have hholder : w.holder = some j := h j hj
    rw [Commons.freeLock, if_neg (by rw [hholder]; simpa using hij)]
    exact hholder

theorem Exclusive.step {s s' : Scene} {e : Event} (h : s.Exclusive) (hstep : Step s e s') :
    s'.Exclusive := by
  cases hstep with
  | tick w g t => exact h
  | begins w g a => exact h
  | drops _ => exact h.freeLock _
  | @call w w' g i a c answer φ hpassage hanswer =>
    by_cases hfree : c = .releaseLock
    · subst hfree
      obtain rfl := hpassage.releaseLock
      obtain ⟨-, rfl⟩ := hanswer
      exact h.freeLock i
    · intro j hj
      rcases Phase.of_update Phase.HoldsLock hj with ⟨rfl, hφ⟩ | ⟨-, hj⟩
      · by_cases htake : c = .acquireLock
        · subst htake
          rcases hanswer with ⟨_, _, rfl⟩ | ⟨_, hbusy, _⟩
          · rfl
          · rcases hpassage.acquireLock with ⟨-, ⟨rfl, -⟩ | rfl⟩
            · cases hbusy
            · exact False.elim hφ
        · exact (hanswer.holder_eq htake hfree).trans (h j (hpassage.holdsLock htake hφ))
      · have hholder : w.holder = some j := h j hj
        by_cases htake : c = .acquireLock
        · subst htake
          rcases hanswer with ⟨hnone, _, _⟩ | ⟨_, _, rfl⟩
          · rw [hholder] at hnone
            cases hnone
          · exact hholder
        · exact (hanswer.holder_eq htake hfree).trans hholder

/-- At the beginning nobody is under the lock. -/
theorem Exclusive.start (w : Commons) : (ofCommons w).Exclusive := fun _ hi => False.elim hi

end Scene

/-! ## What a task knows -/

namespace Purpose

/-- The monitors that a cycle has still to come to. -/
def rest : Purpose → List Monitor
  | trigger _ rest _ => rest
  | initial | rerun => []

end Purpose

namespace Phase

/-- The monitors that a task has to do with. -/
def monitors : Phase → List Monitor
  | idle | locked | timed _ | tending _ | told _ _ _ | dated _ => []
  | rounds _ due => due
  | advancing _ rest m _ => m :: rest
  | submitting k x _ | accepted k x _ _ | stamped k x _ _ _ | refused k x _ _ =>
    x.monitor :: k.rest
  | drafted m | created m | loaded m | poised m _ | stopped m | started m | listed m _
  | cleaning m _ | chosen m _ => [m]

/-- The identifier that a task has drawn and not yet put into the store. -/
def drawn : Phase → Option Uuid
  | drafted m => some m.id
  | submitting _ _ id | accepted _ _ id _ | stamped _ _ id _ _ => some id
  | _ => none

end Phase

section

variable {a : Activity} {φ φ' : Phase} {c : Call} {answer : c.Answer} {w w' : Commons} {i : Nat}

/-- A task has to do with the monitors it had to do with before, with those it is shown by the
store, and with one for which it has just drawn an identifier. -/
theorem Passage.monitors (h : Passage a φ c answer φ') (hw : w.Answers i c answer w') {m : Monitor}
    (hm : m ∈ φ'.monitors) :
    m ∈ φ.monitors ∨ m ∈ w.store.monitors ∨
      (φ' = .drafted m ∧ m.id ∉ w.issued ∧ m.id ∈ w'.issued) := by
  cases h with
  | read | waste | tally => exact .inl hm
  | load =>
    rw [List.mem_singleton.1 hm]
    exact .inr (.inl hw.mem_of_findByName)
  | snapshot => exact .inr (.inl (hw.mem_of_dueMonitors hm).1)
  | aim =>
    left
    rcases List.mem_cons.1 hm with rfl | hm
    · exact List.mem_append_right _ (.head _)
    · exact List.mem_append_right _ (.tail _ hm)
  | advance => exact .inl (.tail _ hm)
  | @reject _ k | @record _ k | @compensate _ k =>
    left
    cases k with
    | trigger => first | exact hm | exact .tail _ hm
    | initial => first | exact .tail _ hm | (rw [List.mem_singleton.1 hm]; exact .head _)
    | rerun => exact .tail _ hm
  | draft =>
    obtain rfl := List.mem_singleton.1 hm
    obtain ⟨hfresh, rfl⟩ := hw
    exact .inr (.inr ⟨rfl, hfresh, .head _⟩)
  | _ => first | exact .inl hm | exact False.elim (List.not_mem_nil hm)

/-- An identifier that a task holds was drawn before, or has just been handed out. -/
theorem Passage.drawn (h : Passage a φ c answer φ') (hw : w.Answers i c answer w') {id : Uuid}
    (hid : φ'.drawn = some id) :
    φ.drawn = some id ∨ (id ∉ w.issued ∧ id ∈ w'.issued) := by
  have fresh : ∀ {id : Uuid}, w.Answers i .freshId id w' → id ∉ w.issued ∧ id ∈ w'.issued := by
    rintro id ⟨hfresh, rfl⟩
    exact ⟨hfresh, .head _⟩
  cases h with
  | aim | begin | again | draft =>
    cases hid
    exact .inr (fresh hw)
  | @reject _ k | @record _ k | @compensate _ k => cases k <;> cases hid
  | _ => first | exact .inl hid | cases hid

end

/-! ## What identifiers stand for -/

/-- A monitor has an identifier that was handed out, and the organization and the name that belong
to it. -/
def Monitor.Belongs (m : Monitor) (home : Uuid → String × String) (issued : List Uuid) : Prop :=
  m.id ∈ issued ∧ home m.id = (m.org, m.name)

/-- A monitor that belongs to an identifier has the organization and the name that go with it. -/
theorem Monitor.Belongs.named {m m' : Monitor} {home : Uuid → String × String} {issued : List Uuid}
    (h : m'.Belongs home issued) (heq : m'.id = m.id) (hhome : home m.id = (m.org, m.name)) :
    m'.org = m.org ∧ m'.name = m.name := by
  have hm := h.2
  rw [heq, hhome] at hm
  exact ⟨congrArg Prod.fst hm.symm, congrArg Prod.snd hm.symm⟩

/-- A monitor still belongs to its identifier after a call, if what was handed out before stands for
the same. -/
theorem Monitor.Belongs.of_call {m : Monitor} {home home' : Uuid → String × String}
    {w w' : Commons} {i : Nat} {c : Call} {answer : c.Answer} (h : m.Belongs home w.issued)
    (hw : w.Answers i c answer w') (hhome : ∀ id ∈ w.issued, home' id = home id) :
    m.Belongs home' w'.issued :=
  ⟨hw.issued_mono h.1, (hhome _ h.1).trans h.2⟩

/-- Each identifier of a scene stands for one thing. The function gives the organization and the
name of the monitor that an identifier stands for. -/
structure Identities (home : Uuid → String × String) (s : Scene) : Prop where
  nodup : (s.commons.store.monitors.map Monitor.id).Nodup
  stored : ∀ m ∈ s.commons.store.monitors, m.Belongs home s.commons.issued
  known : ∀ i, ∀ m ∈ (s.phase i).monitors, m.Belongs home s.commons.issued
  recorded : ∀ r ∈ s.commons.store.runs, r.id ∈ s.commons.issued
  drawn : ∀ i id, (s.phase i).drawn = some id → id ∈ s.commons.issued ∧
    (∀ m ∈ s.commons.store.monitors, m.id ≠ id) ∧ ∀ r ∈ s.commons.store.runs, r.id ≠ id
  apart : ∀ i j id, (s.phase i).drawn = some id → (s.phase j).drawn = some id → i = j
  secret : ∀ i j id, (s.phase i).drawn = some id → ∀ m ∈ (s.phase j).monitors, m.id = id → i = j

namespace Identities

variable {home home' : Uuid → String × String}

section

variable {w w' : Commons} {g : Nat → Phase} {i : Nat} {a : Activity} {c : Call}
  {answer : c.Answer} {φ : Phase}

/-- After a call, the identifier of a stored monitor is that of one stored before, or it is the one
that the caller had drawn. -/
theorem monitorId_of_call (hpassage : Passage a (g i) c answer φ) (hw : w.Answers i c answer w')
    {m' : Monitor} (hm' : m' ∈ w'.store.monitors) :
    ((g i).drawn = some m'.id ∧ φ.drawn = none) ∨
      ∃ m ∈ w.store.monitors, m'.id = m.id ∧ m'.org = m.org ∧ m'.name = m.name := by
  rcases hw.mem_monitors hm' with rfl | ⟨m, hm, rfl | ⟨d, rfl, hrewrites⟩⟩
  · obtain ⟨hdrafted, rfl | rfl⟩ := hpassage.createMonitor
    · exact .inl ⟨by rw [hdrafted]; rfl, rfl⟩
    · exact .inl ⟨by rw [hdrafted]; rfl, rfl⟩
  · exact .inr ⟨m', hm, rfl, rfl, rfl⟩
  · exact .inr ⟨m, hm, hrewrites.id_eq, hrewrites.org_eq, hrewrites.name_eq⟩

/-- After a call, the identifier of a stored run is that of one stored before, or it is the one that
the caller had drawn. -/
theorem runId_of_call (hpassage : Passage a (g i) c answer φ) (hw : w.Answers i c answer w')
    {r' : Run} (hr' : r' ∈ w'.store.runs) :
    ((g i).drawn = some r'.id ∧ φ.drawn = none) ∨ ∃ r ∈ w.store.runs, r'.id = r.id := by
  rcases hw.mem_runs hr' with rfl | ⟨r, hr, rfl | ⟨d, rfl, hobserves⟩⟩
  · obtain ⟨k, x, id, job, now, hstamped, rfl, -, ⟨-, rfl⟩ | ⟨e, -, rfl⟩⟩ :=
      hpassage.createRun
    · exact .inl ⟨by rw [hstamped]; rfl, by cases k <;> rfl⟩
    · exact .inl ⟨by rw [hstamped]; rfl, rfl⟩
  · exact .inr ⟨r', hr, rfl⟩
  · exact .inr ⟨r, hr, hobserves.id_eq⟩

/-- An identifier that nothing stored has is still unused after a call, unless the caller had drawn
it and has it no longer. -/
theorem unused_of_call (hpassage : Passage a (g i) c answer φ) (hw : w.Answers i c answer w')
    {id : Uuid}
    (hunused : (∀ m ∈ w.store.monitors, m.id ≠ id) ∧ ∀ r ∈ w.store.runs, r.id ≠ id)
    (hdrawn : (g i).drawn = some id → φ.drawn ≠ none) :
    (∀ m ∈ w'.store.monitors, m.id ≠ id) ∧ ∀ r ∈ w'.store.runs, r.id ≠ id := by
  refine ⟨fun m' hm' heq => ?_, fun r' hr' heq => ?_⟩
  · rcases monitorId_of_call hpassage hw hm' with ⟨hi, hnone⟩ | ⟨m, hm, hid, -⟩
    · exact hdrawn (heq ▸ hi) hnone
    · exact hunused.1 m hm (hid.symm.trans heq)
  · rcases runId_of_call hpassage hw hr' with ⟨hi, hnone⟩ | ⟨r, hr, hid⟩
    · exact hdrawn (heq ▸ hi) hnone
    · exact hunused.2 r hr (hid.symm.trans heq)

/-- After a call, what a task has drawn has been handed out, and nothing stored has it. -/
theorem drawn_of_call (h : Identities home ⟨w, g⟩) (hpassage : Passage a (g i) c answer φ)
    (hw : w.Answers i c answer w') {j : Nat} {id : Uuid}
    (hj : (Function.update g i φ j).drawn = some id) :
    id ∈ w'.issued ∧ (∀ m ∈ w'.store.monitors, m.id ≠ id) ∧ ∀ r ∈ w'.store.runs, r.id ≠ id := by
  rcases Phase.of_update (·.drawn = some id) hj with ⟨rfl, hφ⟩ | ⟨hij, hj⟩
  · rcases hpassage.drawn hw hφ with hold | ⟨hfresh, hissued⟩
    · obtain ⟨hissued, hunused⟩ := h.drawn j id hold
      exact ⟨hw.issued_mono hissued, unused_of_call hpassage hw hunused fun _ => by simp [hφ]⟩
    · refine ⟨hissued, unused_of_call hpassage hw ⟨fun m hm heq => ?_, fun r hr heq => ?_⟩
        fun _ => by simp [hφ]⟩
      · exact hfresh (heq ▸ (h.stored m hm).1)
      · exact hfresh (heq ▸ h.recorded r hr)
  · obtain ⟨hissued, hunused⟩ := h.drawn j id hj
    refine ⟨hw.issued_mono hissued, unused_of_call hpassage hw hunused fun hi => ?_⟩
    exact absurd (h.apart j i id hj hi) hij

/-- After a call, what the caller has drawn is what nobody else had drawn. -/
theorem apart_of_caller (h : Identities home ⟨w, g⟩) (hpassage : Passage a (g i) c answer φ)
    (hw : w.Answers i c answer w') {j : Nat} {id : Uuid} (hi : φ.drawn = some id)
    (hj : (g j).drawn = some id) : i = j := by
  rcases hpassage.drawn hw hi with hold | ⟨hfresh, -⟩
  · exact h.apart i j id hold hj
  · exact absurd (h.drawn j id hj).1 hfresh

/-- After a call, no two tasks have drawn the same identifier. -/
theorem apart_of_call (h : Identities home ⟨w, g⟩) (hpassage : Passage a (g i) c answer φ)
    (hw : w.Answers i c answer w') {j k : Nat} {id : Uuid}
    (hj : (Function.update g i φ j).drawn = some id)
    (hk : (Function.update g i φ k).drawn = some id) : j = k := by
  rcases Phase.of_update (·.drawn = some id) hj with ⟨rfl, hφ⟩ | ⟨-, hjd⟩
  · rcases Phase.of_update (·.drawn = some id) hk with ⟨rfl, -⟩ | ⟨-, hkd⟩
    · rfl
    · exact h.apart_of_caller hpassage hw hφ hkd
  · rcases Phase.of_update (·.drawn = some id) hk with ⟨rfl, hφ⟩ | ⟨-, hkd⟩
    · exact (h.apart_of_caller hpassage hw hφ hjd).symm
    · exact h.apart j k id hjd hkd

/-- After a call, nobody else has to do with a monitor of an identifier that a task has drawn. -/
theorem secret_of_call (h : Identities home ⟨w, g⟩) (hpassage : Passage a (g i) c answer φ)
    (hw : w.Answers i c answer w') {j k : Nat} {id : Uuid} {m : Monitor}
    (hj : (Function.update g i φ j).drawn = some id)
    (hm : m ∈ (Function.update g i φ k).monitors) (heq : m.id = id) : j = k := by
  rcases Phase.of_update (·.drawn = some id) hj with ⟨rfl, hφ⟩ | ⟨-, hjd⟩
  · rcases Phase.of_update (m ∈ ·.monitors) hm with ⟨rfl, -⟩ | ⟨-, hkm⟩
    · rfl
    · rcases hpassage.drawn hw hφ with hold | ⟨hfresh, -⟩
      · exact h.secret j k id hold m hkm heq
      · exact absurd (heq ▸ (h.known k m hkm).1) hfresh
  · rcases Phase.of_update (m ∈ ·.monitors) hm with ⟨rfl, hφ⟩ | ⟨-, hkm⟩
    · obtain ⟨hissued, hunused, -⟩ := h.drawn j id hjd
      rcases hpassage.monitors hw hφ with hknown | hstored | ⟨-, hfresh, -⟩
      · exact h.secret j k id hjd m hknown heq
      · exact absurd heq (hunused m hstored)
      · exact absurd (heq ▸ hissued) hfresh
    · exact h.secret j k id hjd m hkm heq

/-- A call keeps the identifiers apart, if what the caller has to do with afterwards belongs to
them. -/
theorem of_call (h : Identities home ⟨w, g⟩) (hpassage : Passage a (g i) c answer φ)
    (hw : w.Answers i c answer w') (hhome : ∀ id ∈ w.issued, home' id = home id)
    (hknown : ∀ m ∈ φ.monitors, m.Belongs home' w'.issued) :
    Identities home' ⟨w', Function.update g i φ⟩ := by
  refine ⟨hw.nodup_monitorIds h.nodup, fun m' hm' => ?_, fun j m hm => ?_, fun r' hr' => ?_,
    fun j id hj => h.drawn_of_call hpassage hw hj,
    fun j k id hj hk => h.apart_of_call hpassage hw hj hk,
    fun j k id hj m hm heq => h.secret_of_call hpassage hw hj hm heq⟩
  · rcases hw.mem_monitors hm' with rfl | ⟨m, hm, rfl | ⟨d, rfl, hrewrites⟩⟩
    · have hdrafted : g i = .drafted m' := hpassage.createMonitor.1
      refine (h.known i m' ?_).of_call hw hhome
      simp only [hdrafted, Phase.monitors, List.mem_singleton]
    · exact (h.stored m' hm).of_call hw hhome
    · obtain ⟨hissued, hm⟩ := (h.stored m hm).of_call hw hhome
      rw [Monitor.Belongs, hrewrites.id_eq, hrewrites.org_eq, hrewrites.name_eq]
      exact ⟨hissued, hm⟩
  · rcases Phase.of_update (m ∈ ·.monitors) hm with ⟨rfl, hφ⟩ | ⟨-, hm⟩
    · exact hknown m hφ
    · exact (h.known j m hm).of_call hw hhome
  · rcases runId_of_call hpassage hw hr' with ⟨hdrawn, -⟩ | ⟨r, hr, hid⟩
    · exact hw.issued_mono (h.drawn i _ hdrawn).1
    · rw [hid]
      exact hw.issued_mono (h.recorded r hr)

/-- A call keeps the identifiers apart. A monitor that is drafted gets its place among them. -/
theorem call (h : Identities home ⟨w, g⟩) (hpassage : Passage a (g i) c answer φ)
    (hw : w.Answers i c answer w') :
    ∃ home', Identities home' ⟨w', Function.update g i φ⟩ ∧
      ∀ id ∈ w.issued, home' id = home id := by
  by_cases hdraft : ∃ d, φ = .drafted d ∧ d.id ∉ w.issued
  · obtain ⟨d, rfl, hfresh⟩ := hdraft
    have hhome : ∀ id ∈ w.issued, Function.update home d.id (d.org, d.name) id = home id :=
      fun id hid => Function.update_of_ne (fun heq : id = d.id => hfresh (heq ▸ hid)) _ _
    refine ⟨_, h.of_call hpassage hw hhome fun m hm => ?_, hhome⟩
    obtain rfl := List.mem_singleton.1 hm
    rcases hpassage.monitors hw (.head _) with hknown | hstored | ⟨-, -, hissued⟩
    · exact absurd (h.known i m hknown).1 hfresh
    · exact absurd (h.stored m hstored).1 hfresh
    · exact ⟨hissued, Function.update_self _ _ _⟩
  · refine ⟨home, h.of_call hpassage hw (fun _ _ => rfl) fun m hm => ?_, fun _ _ => rfl⟩
    rcases hpassage.monitors hw hm with hknown | hstored | ⟨rfl, hfresh, -⟩
    · exact (h.known i m hknown).of_call hw fun _ _ => rfl
    · exact (h.stored m hstored).of_call hw fun _ _ => rfl
    · exact absurd ⟨m, rfl, hfresh⟩ hdraft

end

/-- Identifiers stay apart while the scene rests. -/
theorem rests {s s' : Scene} (h : Identities home s) (hrests : s.Rests s') :
    Identities home s' := by
  -- a task that has left the calendar has to do with nothing any more
  have hmonitors : ∀ i, ∀ m ∈ (s'.phase i).monitors, m ∈ (s.phase i).monitors :=
    fun i m hm => hrests.of_phase (P := (m ∈ ·.monitors)) List.not_mem_nil hm
  have hdrawn : ∀ i id, (s'.phase i).drawn = some id → (s.phase i).drawn = some id :=
    fun i id hid => hrests.of_phase (P := (·.drawn = some id)) nofun hid
  refine ⟨?_, ?_, fun i m hm => ?_, ?_, fun i id hi => ?_, fun i j id hi hj => ?_,
    fun i j id hi m hm => ?_⟩
  · exact hrests.store ▸ h.nodup
  · simpa only [hrests.store, hrests.issued] using h.stored
  · simpa only [hrests.issued] using h.known i m (hmonitors i m hm)
  · simpa only [hrests.store, hrests.issued] using h.recorded
  · simpa only [hrests.store, hrests.issued] using h.drawn i id (hdrawn i id hi)
  · exact h.apart i j id (hdrawn i id hi) (hdrawn j id hj)
  · exact h.secret i j id (hdrawn i id hi) m (hmonitors j m hm)

/-- Every step keeps the identifiers apart, and what they stand for stays the same. -/
theorem step {s s' : Scene} {e : Event} (h : Identities home s) (hstep : s.Step e s') :
    ∃ home', Identities home' s' ∧ ∀ id ∈ s.commons.issued, home' id = home id := by
  rcases hstep.call_or_rests with ⟨i, a, c, answer, rfl⟩ | ⟨-, hrests⟩
  · cases hstep with
    | call hpassage hanswer => exact h.call hpassage hanswer
  · exact ⟨home, h.rests hrests, fun _ _ => rfl⟩

/-- At a fresh site each identifier stands for one thing. -/
theorem start {s : Site} (h : s.IsFresh) :
    ∃ home, Identities home (Scene.ofCommons s.commons) := by
  refine ⟨fun id => ((s.commons.store.findMonitor id).map fun m => (m.org, m.name)).getD ("", ""),
    h.monitorIds, fun m hm => ⟨h.monitorIssued m hm, ?_⟩, fun i m hm => absurd hm List.not_mem_nil,
    h.runIssued, fun i id hi => ?_, fun i j id hi => ?_,
    fun i j id hi => ?_⟩
  · dsimp only
    rw [Store.findMonitor_of_mem h.monitorIds hm]
    rfl
  · cases hi
  · cases hi
  · cases hi

end Identities

end TraceWatch
