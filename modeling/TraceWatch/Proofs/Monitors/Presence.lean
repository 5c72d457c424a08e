import TraceWatch.Proofs.Monitors.Origin
import TraceWatch.Proofs.Schedule.Steady
import TraceWatch.Proofs.Store.Consistency

/-!
# Coming and going

A monitor gets into the store by its creation and a run by its execution, and by nothing else
(`Step.adds_monitor`, `Step.adds_run`). What has been in the store under an identifier and is there
no longer does not come back: nobody holds the identifier any more to put something there under it
(`Scene.Spent`). And a monitor leaves the store only with a call that deletes it, which is made by
a deletion under its name, or by the creation that is taking it back.
-/

namespace TraceWatch

/-- Some stored monitor has the identifier. -/
def Store.HasMonitor (s : Store) (id : Uuid) : Prop := ∃ m ∈ s.monitors, m.id = id

/-- Some stored run has the identifier. -/
def Store.HasRun (s : Store) (id : Uuid) : Prop := ∃ r ∈ s.runs, r.id = id

/-! ## Events -/

/-- The activities that carry out executions. -/
def Activity.Executes : Activity → Prop
  | cycle _ | create _ _ _ | rerun _ _ _ _ => True
  | _ => False

theorem Purpose.Suits.executes {k : Purpose} {a : Activity} (h : k.Suits a) : a.Executes := by
  cases a with
  | cycle | create | rerun => trivial
  | _ => cases k <;> exact False.elim h

namespace Event

/-- With the event the task, a creation, puts the monitor into the store. -/
def Creates (k : Nat) (m : Monitor) (e : Event) : Prop :=
  ∃ template org request,
    e = .call k (.create template org request) (.store (.createMonitor m)) (.ok ())

/-- With the event an execution records the run. -/
def Records (r : Run) (e : Event) : Prop :=
  ∃ k a, a.Executes ∧ e = .call k a (.store (.createRun r)) (.ok ())

/-- With the event the monitor with the identifier is deleted, by whomever. -/
def Deletes (id : Uuid) (e : Event) : Prop :=
  ∃ k a answer, e = .call k a (.store (.deleteMonitor id)) answer

/-- With the event a deletion deletes the monitor of an organization with a name. -/
def DeletesNamed (org name : String) (e : Event) : Prop :=
  ∃ k id answer, e = .call k (.delete org name) (.store (.deleteMonitor id)) answer

end Event

namespace Scene

variable {s s' : Scene} {e : Event} {es : List Event}

/-! ## Getting into the store -/

/-- A monitor that was not in the store before has been put there by its creation. -/
theorem Step.adds_monitor (h : Step s e s') {m' : Monitor}
    (hm' : m' ∈ s'.commons.store.monitors) (hnew : ¬ s.commons.store.HasMonitor m'.id) :
    ∃ k, e.Creates k m' := by
  rcases h.call_or_rests with ⟨k, a, c, answer, rfl⟩ | ⟨-, hrests⟩
  · cases h with
    | @call w w' g _ _ _ _ φ hpassage hw =>
      rcases hw.mem_monitors hm' with rfl | ⟨m, hm, rfl | ⟨d, rfl, hrewrites⟩⟩
      · obtain ⟨hanswer, rfl⟩ := hw
        rcases StoreCall.createMonitor_cases w.clock w.store m' with ⟨_, heq⟩ | ⟨-, heq⟩
        · -- a refused creation changes nothing
          dsimp only at hm'
          rw [heq] at hm'
          exact absurd ⟨m', hm', rfl⟩ hnew
        · rw [heq] at hanswer
          obtain rfl : answer = .ok () := hanswer
          obtain ⟨template, org, request, rfl⟩ := hpassage.createMonitor_activity
          exact ⟨_, _, _, _, rfl⟩
      · exact absurd ⟨m', hm, rfl⟩ hnew
      · exact absurd ⟨m, hm, hrewrites.id_eq.symm⟩ hnew
  · exact absurd ⟨m', hrests.store ▸ hm', rfl⟩ hnew

/-- A run that was not in the store before has been put there by its execution. -/
theorem Step.adds_run (h : Step s e s') {r' : Run} (hr' : r' ∈ s'.commons.store.runs)
    (hnew : ¬ s.commons.store.HasRun r'.id) : e.Records r' := by
  rcases h.call_or_rests with ⟨k, a, c, answer, rfl⟩ | ⟨-, hrests⟩
  · cases h with
    | @call w w' g _ _ _ _ φ hpassage hw =>
      rcases hw.mem_runs hr' with rfl | ⟨r, hr, rfl | ⟨d, rfl, hobserves⟩⟩
      · obtain ⟨_, x, id, job, now, -, -, hsuits, ⟨rfl, -⟩ | ⟨err, rfl, -⟩⟩ := hpassage.createRun
        · exact ⟨_, _, hsuits.executes, rfl⟩
        · -- a refused record changes nothing
          obtain ⟨hanswer, rfl⟩ := hw
          rcases StoreCall.createRun_cases (Prod.ext hanswer rfl) with ⟨_, -, hsame, -⟩ | ⟨hok, -⟩
          · exact absurd ⟨r', hsame ▸ hr', rfl⟩ hnew
          · cases hok
      · exact absurd ⟨r', hr, rfl⟩ hnew
      · exact absurd ⟨r, hr, hobserves.id_eq.symm⟩ hnew
  · exact absurd ⟨r', hrests.store ▸ hr', rfl⟩ hnew

/-! ## Not coming back -/

/-- The identifier was handed out, and nobody holds it to put something into the store under it. -/
structure Spent (s : Scene) (id : Uuid) : Prop where
  issued : id ∈ s.commons.issued
  undrawn : ∀ k, (s.phase k).drawn ≠ some id

/-- The identifier of a stored monitor is spent. -/
theorem Reachable.spent_of_monitor (h : s.Reachable) {id : Uuid}
    (hm : s.commons.store.HasMonitor id) : s.Spent id := by
  obtain ⟨m, hm, rfl⟩ := hm
  obtain ⟨home, hid⟩ := h.identities
  exact ⟨(hid.stored m hm).1, fun k hk => (hid.drawn k m.id hk).2.1 m hm rfl⟩

/-- The identifier of a stored run is spent. -/
theorem Reachable.spent_of_run (h : s.Reachable) {id : Uuid} (hr : s.commons.store.HasRun id) :
    s.Spent id := by
  obtain ⟨r, hr, rfl⟩ := hr
  obtain ⟨home, hid⟩ := h.identities
  exact ⟨hid.recorded r hr, fun k hk => (hid.drawn k r.id hk).2.2 r hr rfl⟩

namespace Spent

variable {id : Uuid}

theorem step (h : s.Spent id) (hstep : Step s e s') : s'.Spent id := by
  refine ⟨hstep.issued_mono h.issued, fun k hk => ?_⟩
  rcases hstep.call_or_rests with ⟨i, a, c, answer, rfl⟩ | ⟨-, hrests⟩
  · cases hstep with
    | call hpassage hw =>
      rcases Phase.of_update (·.drawn = some id) hk with ⟨rfl, hφ⟩ | ⟨-, hk⟩
      · rcases hpassage.drawn hw hφ with hold | ⟨hfresh, -⟩
        · exact h.undrawn k hold
        · exact hfresh h.issued
      · exact h.undrawn k hk
  · exact h.undrawn k (hrests.of_phase (P := (·.drawn = some id)) nofun hk)

theorem history (h : s.Spent id) (hes : s.History es s') : s'.Spent id :=
  hes.preserves step h

/-- No step puts a monitor into the store under a spent identifier. -/
theorem hasMonitor_of_step (h : s.Spent id) (hstep : Step s e s')
    (hm' : s'.commons.store.HasMonitor id) : s.commons.store.HasMonitor id := by
  obtain ⟨m', hm', rfl⟩ := hm'
  rcases hstep.call_or_rests with ⟨i, a, c, answer, rfl⟩ | ⟨-, hrests⟩
  · cases hstep with
    | call hpassage hw =>
      rcases Identities.monitorId_of_call hpassage hw hm' with ⟨hdrawn, -⟩ | ⟨m, hm, hid, -⟩
      · exact absurd hdrawn (h.undrawn i)
      · exact ⟨m, hm, hid.symm⟩
  · exact ⟨m', hrests.store ▸ hm', rfl⟩

/-- No step puts a run into the store under a spent identifier. -/
theorem hasRun_of_step (h : s.Spent id) (hstep : Step s e s') (hr' : s'.commons.store.HasRun id) :
    s.commons.store.HasRun id := by
  obtain ⟨r', hr', rfl⟩ := hr'
  rcases hstep.call_or_rests with ⟨i, a, c, answer, rfl⟩ | ⟨-, hrests⟩
  · cases hstep with
    | call hpassage hw =>
      rcases Identities.runId_of_call hpassage hw hr' with ⟨hdrawn, -⟩ | ⟨r, hr, hid⟩
      · exact absurd hdrawn (h.undrawn i)
      · exact ⟨r, hr, hid.symm⟩
  · exact ⟨r', hrests.store ▸ hr', rfl⟩

/-- Nobody creates a monitor under a spent identifier. -/
theorem ne_createMonitor {w : Commons} {g : Nat → Phase} {k : Nat} {a : Activity} {c : Call}
    {answer : c.Answer} {φ : Phase} {m : Monitor} (h : Spent ⟨w, g⟩ m.id)
    (hpassage : Passage a (g k) c answer φ) : c ≠ .store (.createMonitor m) := by
  rintro rfl
  refine h.undrawn k ?_
  dsimp only
  rw [hpassage.createMonitor.1]
  rfl

/-- A monitor that is gone does not come back. -/
theorem not_hasMonitor (h : s.Spent id) (hes : s.History es s')
    (hgone : ¬ s.commons.store.HasMonitor id) : ¬ s'.commons.store.HasMonitor id := by
  induction hes with
  | nil => exact hgone
  | snoc hbefore hstep ih => exact fun hm => ih ((h.history hbefore).hasMonitor_of_step hstep hm)

/-- A run that is gone does not come back. -/
theorem not_hasRun (h : s.Spent id) (hes : s.History es s')
    (hgone : ¬ s.commons.store.HasRun id) : ¬ s'.commons.store.HasRun id := by
  induction hes with
  | nil => exact hgone
  | snoc hbefore hstep ih => exact fun hr => ih ((h.history hbefore).hasRun_of_step hstep hr)

end Spent

/-- Some monitor was stored under the identifier, and if it still is, it has the property. -/
structure Stores (s : Scene) (id : Uuid) (P : Monitor → Prop) : Prop where
  spent : s.Spent id
  stored : ∀ m ∈ s.commons.store.monitors, m.id = id → P m

/-- A stored monitor has the properties that it has. -/
theorem Reachable.stores (hs : s.Reachable) {m : Monitor} {P : Monitor → Prop}
    (hm : m ∈ s.commons.store.monitors) (hP : P m) : s.Stores m.id P := by
  obtain ⟨home, hid⟩ := hs.identities
  refine ⟨hs.spent_of_monitor ⟨m, hm, rfl⟩, fun m' hm' heq => ?_⟩
  rwa [List.inj_on_of_nodup_map hid.nodup hm' hm heq]

/-- If the monitor is stored after a step, it was stored before. -/
theorem Stores.step {id : Uuid} {P Q : Monitor → Prop} (h : s.Stores id P) (hstep : Step s e s')
    (hPQ : ∀ m ∈ s.commons.store.monitors, ∀ m' ∈ s'.commons.store.monitors, m'.id = m.id →
      m.id = id → P m → Q m') : s'.Stores id Q := by
  refine ⟨h.spent.step hstep, fun m' hm' heq => ?_⟩
  obtain ⟨m, hm, hid⟩ := h.spent.hasMonitor_of_step hstep ⟨m', hm', heq⟩
  exact hPQ m hm m' hm' (heq.trans hid.symm) hid (h.stored m hm hid)

/-- A monitor that is stored is found by the name that any copy of it bears. -/
theorem Fixes.findByName_eq {m : Monitor} (h : s.Fixes m.origin) (hs : s.Reachable)
    (hpresent : s.commons.store.HasMonitor m.id) :
    ∃ m' ∈ s.commons.store.monitors, s.commons.store.findByName m.org m.name = some m' ∧
      m'.origin = m.origin := by
  obtain ⟨m', hm', heq⟩ := hpresent
  have horigin : m'.origin = m.origin := h.known m' (.inl hm') heq
  obtain ⟨-, horg, hname⟩ := Monitor.identity_eq horigin
  have hfind := hs.isConsistent.findByName_eq hm'
  rw [horg, hname] at hfind
  exact ⟨m', hm', hfind, horigin⟩

/-! ## Leaving the store -/

/-- A monitor stays in the store, or the step deletes it. -/
theorem Step.stays_or_deletes (h : Step s e s') {id : Uuid} (hm : s.commons.store.HasMonitor id) :
    s'.commons.store.HasMonitor id ∨ e.Deletes id := by
  obtain ⟨m, hm, rfl⟩ := hm
  rcases h.call_or_rests with ⟨k, a, c, answer, rfl⟩ | ⟨-, hrests⟩
  · cases h with
    | @call w w' g _ _ _ _ φ hpassage hw =>
      by_cases hdelete : c = .store (.deleteMonitor m.id)
      · subst hdelete
        exact .inr ⟨_, _, _, rfl⟩
      · left
        rcases hw.store_cases with ⟨d, rfl, hstore⟩ | hsame
        · rw [hstore]
          exact StoreCall.exists_id_perform hm fun hd => hdelete (congrArg _ hd)
        · exact ⟨m, hsame ▸ hm, rfl⟩
  · exact .inl ⟨m, hrests.store ▸ hm, rfl⟩

/-- A monitor stays in the store unless it is deleted. -/
theorem History.stays (h : s.History es s') {id : Uuid} (hes : ∀ e ∈ es, ¬ e.Deletes id)
    (hm : s.commons.store.HasMonitor id) : s'.commons.store.HasMonitor id := by
  induction h with
  | nil => exact hm
  | snoc _ hstep ih =>
    rcases hstep.stays_or_deletes (ih fun e he => hes e (List.mem_append_left _ he)) with
      hstays | hdeletes
    · exact hstays
    · exact absurd hdeletes (hes _ (List.mem_append_right _ (.head _)))

/-- A monitor is deleted by the creation that has put it into the store and takes it back, since its
first run has failed, or by a deletion that has found it by its name. -/
theorem Step.deletes_cases (h : Step s e s') {id : Uuid} (he : e.Deletes id) :
    (∃ k m, e.caller = some k ∧ m ∈ (s.phase k).fosters ∧ m.id = id ∧ m.traceStart.isSome = true) ∨
      ∃ m, s.Knows m ∧ m.id = id ∧ e.DeletesNamed m.org m.name := by
  obtain ⟨k, a, answer, rfl⟩ := he
  cases h with
  | @call w w' g _ _ _ _ φ hpassage hw =>
    rcases hpassage.deleteMonitor with ⟨m, hk, rfl, -, hstart⟩ | ⟨m, runs, hk, rfl, rfl, -⟩
    · have hm : m ∈ (g k).fosters := hk ▸ .head _
      exact .inl ⟨k, m, rfl, hm, rfl, hstart⟩
    · have hm : m ∈ (g k).monitors := hk ▸ .head _
      exact .inr ⟨m, .inr ⟨k, hm⟩, rfl, k, _, _, rfl⟩

end Scene

end TraceWatch
