import TraceWatch.Proofs.Monitors.Presence
import TraceWatch.Proofs.Schedule.Recall
import TraceWatch.Proofs.Schedule.Switch

/-!
# Definitions

What edits may change of a monitor is its definition. It is written as a whole: an edit puts the
fields that it sets into the definition of the copy that it has found, and the other fields it
writes back as they were there (`Scene.History.written`). Nothing else changes the definition of a
stored monitor (`Scene.Step.definition_eq`), so what an edit finds is what was written last
(`Scene.DefinedAs.found`).
-/

namespace TraceWatch

/-- What edits may change of a monitor. -/
structure Definition where
  displayName : String
  evaluators : List Evaluator
  samplingRate : Binary64
  interval : Option Int

/-- The definition of a monitor. -/
def Monitor.definition (m : Monitor) : Definition where
  displayName := m.displayName
  evaluators := m.evaluators
  samplingRate := m.samplingRate
  interval := m.interval

/-- The definition with the fields of the request put in. -/
def Edit.revise (edit : Edit) (d : Definition) : Definition where
  displayName := edit.displayName.getD d.displayName
  evaluators := edit.evaluators.getD d.evaluators
  samplingRate := edit.samplingRate.getD d.samplingRate
  interval := edit.interval <|> d.interval

/-- An edit revises the definition of the monitor that it is applied to. -/
theorem Edit.definition_apply (edit : Edit) (m : Monitor) :
    (edit.apply m).definition = edit.revise m.definition := rfl

/-- The definition that the monitor is given with the event. -/
def Event.defines? (id : Uuid) : Event → Option Definition
  | call _ _ (.store (.updateDefinition d)) (.ok ()) =>
    if d.id = id then some d.definition else none
  | _ => none

/-- With the event the task, an edit, gives the monitor the definition. -/
inductive Event.Writes (m : Monitor) (k : Nat) (edit : Edit) : Definition → Event → Prop
  | mk (x : Monitor) : x.id = m.id → Writes m k edit x.definition
    (.call k (.update m.org m.name edit) (.store (.updateDefinition x)) (.ok ()))

namespace Event

variable {e : Event} {id : Uuid} {d : Definition} {m : Monitor} {k : Nat} {edit : Edit}

/-- A definition is given with the call for it. -/
theorem of_defines? (h : e.defines? id = some d) :
    ∃ k a x, e = .call k a (.store (.updateDefinition x)) (.ok ()) ∧ x.id = id ∧
      x.definition = d := by
  unfold defines? at h
  split at h
  · split at h
    · next hid => exact ⟨_, _, _, rfl, hid, Option.some.inj h⟩
    · cases h
  · cases h

theorem defines?_update {a : Activity} {x : Monitor} (hid : x.id = id) :
    (call k a (.store (.updateDefinition x)) (.ok ())).defines? id = some x.definition :=
  if_pos hid

theorem Writes.defines? (h : e.Writes m k edit d) : e.defines? m.id = some d := by
  cases h with
  | mk x hid => exact defines?_update hid

end Event

/-! ## What changes a definition -/

/-- A call that is not for the definition leaves it as it is. -/
theorem StoreCall.Rewrites.definition_eq {now : Timestamp} {c : StoreCall} {m m' : Monitor}
    (h : Rewrites now c m m') (hc : ∀ x, c = .updateDefinition x → x.id ≠ m.id) :
    m'.definition = m.definition := by
  cases h with
  | definition hid => exact absurd hid (hc _ rfl)
  | _ => rfl

namespace Scene

variable {s s' : Scene} {e : Event} {es : List Event} {m m' : Monitor} {d : Definition} {k : Nat}
  {id : Uuid}

/-- A stored monitor has the definition that it is given with a step, or else the one it had. -/
theorem Step.definition_eq (h : Step s e s') (hs : s.Reachable) (hm : m ∈ s.commons.store.monitors)
    (hm' : m' ∈ s'.commons.store.monitors) (heq : m'.id = m.id) :
    m'.definition = (e.defines? m.id).getD m.definition := by
  have hids := hs.isConsistent.ids
  cases hdefines : e.defines? m.id with
  | some d =>
    obtain ⟨k, a, x, rfl, hid, rfl⟩ := Event.of_defines? hdefines
    cases h with
    | call _ hw =>
      obtain ⟨hanswer, rfl⟩ := hw
      obtain ⟨hdisplay, hevaluators, hrate, hinterval⟩ :=
        StoreCall.definition_of_update hanswer.symm hm' (heq.trans hid.symm)
      rw [Option.getD_some, Monitor.definition, hdisplay, hevaluators, hrate, hinterval,
        Monitor.definition]
  | none =>
    rcases h.call_or_rests with ⟨k, a, c, answer, rfl⟩ | ⟨-, hrests⟩
    · cases h with
      | @call w w' g _ _ _ _ φ hpassage hw =>
        have hnot : ∀ x, c = .store (.updateDefinition x) → x.id ≠ m.id := by
          rintro x rfl hid
          obtain rfl : answer = .ok () :=
            hw.1.trans (StoreCall.updateDefinition_answer hm hid)
          rw [Event.defines?_update hid] at hdefines
          cases hdefines
        rcases hw.mem_monitors hm' with rfl | ⟨m₁, hm₁, rfl | ⟨c, rfl, hrewrites⟩⟩
        · have hspent := hs.spent_of_monitor ⟨m, hm, rfl⟩
          exact absurd rfl ((heq ▸ hspent).ne_createMonitor hpassage)
        · rw [List.inj_on_of_nodup_map hids hm₁ hm heq]
          rfl
        · obtain rfl : m₁ = m :=
            List.inj_on_of_nodup_map hids hm₁ hm (hrewrites.id_eq.symm.trans heq)
          exact hrewrites.definition_eq fun x hx => hnot x (congrArg _ hx)
    · rw [List.inj_on_of_nodup_map hids (hrests.store ▸ hm') hm heq]
      rfl

/-- Some monitor was stored under the identifier, and if it still is, it has the definition. -/
abbrev DefinedAs (s : Scene) (id : Uuid) (d : Definition) : Prop :=
  s.Stores id fun m => m.definition = d

namespace DefinedAs

theorem step (h : s.DefinedAs id d) (hs : s.Reachable) (hstep : Step s e s') :
    s'.DefinedAs id ((e.defines? id).getD d) :=
  Stores.step h hstep fun m hm m' hm' heq hid hd => by
    subst hid hd
    exact hstep.definition_eq hs hm hm' heq

/-- After an edit has written it has the definition that was written. -/
theorem write {edit : Edit} {d' : Definition} (h : s.DefinedAs m.id d) (hs : s.Reachable)
    (hstep : Step s e s') (he : e.Writes m k edit d') : s'.DefinedAs m.id d' := by
  have hnext := h.step hs hstep
  rwa [he.defines?] at hnext

/-- It has the definition until it is given another. -/
theorem history (h : s.DefinedAs id d) (hs : s.Reachable) (hes : s.History es s')
    (hquiet : ∀ e ∈ es, e.defines? id = none) : s'.DefinedAs id d := by
  refine hs.preserves (I := fun s => s.DefinedAs id d) (fun hs h hstep hnone => ?_) hes hquiet h
  have hnext := h.step hs hstep
  rwa [hnone] at hnext

/-- Who finds the monitor in the meantime finds it with the definition. -/
theorem found (h : s.DefinedAs id d) (hs : s.Reachable) (hes : s.History es s')
    (hquiet : ∀ e ∈ es, e.defines? id = none) (hfound : HasFound k m es) (hid : m.id = id) :
    m.definition = d := by
  obtain ⟨a, he⟩ := hfound
  obtain ⟨es₁, u, u', es₂, rfl, hbefore, hstep, -⟩ := hes.of_mem he
  exact (h.history hs hbefore fun e he => hquiet e (List.mem_append_left _ he)).stored m
    (List.mem_of_find?_eq_some hstep.findByName_eq) hid

end DefinedAs

/-! ## Who writes a definition -/

/-- What an edit writes is what it makes of the definition that it has found before. -/
theorem History.written {w : Commons} {edit : Edit} (h : (ofCommons w).History es s)
    (hstep : Step s e s') (he : e.Writes m k edit d) :
    ∃ c, c.id = m.id ∧ HasFound k c es ∧ d = edit.revise c.definition := by
  have hrecalls := h.recalls k
  cases he with
  | mk x hid =>
    cases hstep with
    | call hpassage _ =>
      obtain ⟨c, now, edit', hphase, hactivity, -, rfl⟩ := hpassage.updateDefinition
      obtain ⟨-, -, rfl⟩ := Activity.update.inj hactivity
      dsimp only at hrecalls
      rw [hphase] at hrecalls
      exact ⟨c, hid, hrecalls.found c rfl, edit.definition_apply c⟩

end Scene

end TraceWatch
