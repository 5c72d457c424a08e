import Mathlib.Data.List.Nodup
import TraceWatch.Store.Call

/-!
# What calls of the store leave as it is

A call changes a stored monitor in one of four ways, and no call changes what a run was recorded
for. `StoreCall.Rewrites` and `StoreCall.Observes` say which; `mem_monitors_perform` and
`mem_runs_perform` say that whatever is in the store afterwards was there before, rewritten at most,
or has just been added. Nothing leaves the store but by `deleteMonitor`.
-/

namespace TraceWatch

/-- If no two monitors have the same identifier, each is the one found by its own. -/
theorem Store.findMonitor_of_mem {s : Store} (hnodup : (s.monitors.map Monitor.id).Nodup)
    {m : Monitor} (hm : m ∈ s.monitors) : s.findMonitor m.id = some m := by
  cases hfind : s.findMonitor m.id with
  | none =>
    have hne := List.find?_eq_none.1 hfind m hm
    simp at hne
  | some m' =>
    have hid : m'.id = m.id := by simpa using List.find?_some hfind
    have hmem : m' ∈ s.monitors := List.mem_of_find?_eq_some hfind
    rw [List.inj_on_of_nodup_map hnodup hmem hm hid]

/-- What is found by a name bears it. -/
theorem Store.named_of_findByName {s : Store} {org name : String} {m : Monitor}
    (h : s.findByName org name = some m) : m.org = org ∧ m.name = name := by
  simpa using List.find?_some h

namespace StoreCall

variable {now : Timestamp} {s : Store} {c : StoreCall}

/-! ## What a call is about -/

/-- Calls that leave the monitors as they are. -/
def keepsMonitors : StoreCall → Bool
  | createMonitor _ | updateDefinition _ | advance _ _ | suspend _ | resume _ _ | deleteMonitor _ =>
    false
  | _ => true

/-- Calls that leave the runs as they are. -/
def keepsRuns : StoreCall → Bool
  | deleteMonitor _ | createRun _ | updateStatus _ _ _ => false
  | _ => true

theorem monitors_perform (h : c.keepsMonitors = true) :
    (c.perform now s).2.monitors = s.monitors := by
  cases c with
  | createRun r =>
    simp only [perform, Store.createRun, Store.putRun]
    split
    · dsimp only [change]
      split <;> rfl
    · rfl
  | updateStatus id status message =>
    simp only [perform, Store.updateStatus]
    split <;> rfl
  | createMonitor | updateDefinition | advance | suspend | resume | deleteMonitor => cases h
  | _ => rfl

theorem runs_perform (h : c.keepsRuns = true) : (c.perform now s).2.runs = s.runs := by
  cases c with
  | createMonitor d =>
    simp only [perform, Store.createMonitor, Store.putMonitor]
    split
    · rfl
    · dsimp only [change]
      split <;> rfl
  | updateDefinition d =>
    simp only [perform, Store.updateDefinition]
    split <;> rfl
  | advance | suspend | resume =>
    simp only [perform, Store.advance, Store.suspend, Store.resume, Store.reschedule]
    split <;> rfl
  | deleteMonitor | createRun | updateStatus => cases h
  | _ => rfl

/-! ## Monitors -/

/-- What a call may make of a stored monitor. -/
inductive Rewrites (now : Timestamp) : StoreCall → Monitor → Monitor → Prop
  | same (c : StoreCall) (m : Monitor) : Rewrites now c m m
  | definition {d m : Monitor} : d.id = m.id →
    Rewrites now (.updateDefinition d) m { m with
      displayName := d.displayName
      evaluators := d.evaluators
      samplingRate := d.samplingRate
      interval := d.interval
      updatedAt := d.updatedAt }
  | advance (m : Monitor) (next : Timestamp) :
    Rewrites now (.advance m.id next) m { m with nextRun := some next, updatedAt := now }
  | suspend (m : Monitor) :
    Rewrites now (.suspend m.id) m { m with nextRun := none, updatedAt := now }
  | resume (m : Monitor) (next : Timestamp) :
    Rewrites now (.resume m.id next) m { m with nextRun := some next, updatedAt := now }

namespace Rewrites

variable {m m' : Monitor}

theorem id_eq (h : Rewrites now c m m') : m'.id = m.id := by cases h <;> rfl

theorem org_eq (h : Rewrites now c m m') : m'.org = m.org := by cases h <;> rfl

theorem name_eq (h : Rewrites now c m m') : m'.name = m.name := by cases h <;> rfl

end Rewrites

/-- What a conditional change of a schedule leaves of the monitors. -/
theorem mem_reschedule {id : Uuid} {may : Monitor → Bool} {next : Option Timestamp} {m' : Monitor}
    (h : m' ∈ (s.reschedule id may next now).1.monitors) :
    ∃ m ∈ s.monitors, m' = m ∨ (m.id = id ∧ m' = { m with nextRun := next, updatedAt := now }) := by
  unfold Store.reschedule at h
  split at h
  · obtain ⟨m, hm, rfl⟩ := List.mem_map.1 h
    refine ⟨m, hm, ?_⟩
    split
    · next hid => exact .inr ⟨hid, rfl⟩
    · exact .inl rfl
  · exact ⟨m', h, .inl rfl⟩

/-- Every monitor is in the store after a conditional change of a schedule. -/
theorem mem_reschedule_of_mem (id : Uuid) (may : Monitor → Bool) (next : Option Timestamp)
    {m : Monitor} (h : m ∈ s.monitors) :
    ∃ m' ∈ (s.reschedule id may next now).1.monitors,
      m' = m ∨ (m.id = id ∧ m' = { m with nextRun := next, updatedAt := now }) := by
  unfold Store.reschedule
  split
  · refine ⟨_, List.mem_map_of_mem h, ?_⟩
    split
    · next hid => exact .inr ⟨hid, rfl⟩
    · exact .inl rfl
  · exact ⟨m, h, .inl rfl⟩

/-- A monitor in the store after a call has just been put there, or it was there before and the
call may have rewritten it. -/
theorem mem_monitors_perform {m' : Monitor} (h : m' ∈ (c.perform now s).2.monitors) :
    c = .createMonitor m' ∨ ∃ m ∈ s.monitors, Rewrites now c m m' := by
  have kept (hm' : m' ∈ s.monitors) :
      c = .createMonitor m' ∨ ∃ m ∈ s.monitors, Rewrites now c m m' :=
    .inr ⟨m', hm', .same c m'⟩
  have about_runs (hc : c.keepsMonitors = true) := kept (monitors_perform hc ▸ h)
  cases c with
  | createMonitor d =>
    simp only [perform, Store.createMonitor, Store.putMonitor] at h
    split at h
    · exact kept h
    · dsimp only [change] at h
      split at h
      · obtain ⟨m, hm, rfl⟩ := List.mem_map.1 h
        split
        · exact .inl rfl
        · exact .inr ⟨m, hm, .same _ m⟩
      · rcases List.mem_append.1 h with h | h
        · exact kept h
        · exact .inl (congrArg _ (List.mem_singleton.1 h).symm)
  | updateDefinition d =>
    simp only [perform, Store.updateDefinition] at h
    split at h
    · obtain ⟨m, hm, rfl⟩ := List.mem_map.1 h
      refine .inr ⟨m, hm, ?_⟩
      split
      · next hid => exact .definition hid.symm
      · exact .same _ m
    · exact kept h
  | advance id next =>
    obtain ⟨m, hm, rfl | ⟨rfl, rfl⟩⟩ := mem_reschedule h
    · exact .inr ⟨m', hm, .same _ m'⟩
    · exact .inr ⟨m, hm, .advance m next⟩
  | suspend id =>
    obtain ⟨m, hm, rfl | ⟨rfl, rfl⟩⟩ := mem_reschedule h
    · exact .inr ⟨m', hm, .same _ m'⟩
    · exact .inr ⟨m, hm, .suspend m⟩
  | resume id next =>
    obtain ⟨m, hm, rfl | ⟨rfl, rfl⟩⟩ := mem_reschedule h
    · exact .inr ⟨m', hm, .same _ m'⟩
    · exact .inr ⟨m, hm, .resume m next⟩
  | deleteMonitor id => exact kept (List.mem_filter.1 h).1
  | _ => exact about_runs rfl

/-- A monitor stays in the store, rewritten at most, unless a call deletes it or puts another in its
place. -/
theorem mem_monitors_perform_of_mem {m : Monitor} (h : m ∈ s.monitors)
    (hdelete : c ≠ .deleteMonitor m.id) (hcreate : ∀ d, c = .createMonitor d → d.id ≠ m.id) :
    ∃ m' ∈ (c.perform now s).2.monitors, Rewrites now c m m' := by
  have about_runs (hc : c.keepsMonitors = true) :
      ∃ m' ∈ (c.perform now s).2.monitors, Rewrites now c m m' :=
    ⟨m, (monitors_perform hc).symm ▸ h, .same c m⟩
  cases c with
  | createMonitor d =>
    have hne : m.id ≠ d.id := fun heq => hcreate d rfl heq.symm
    simp only [perform, Store.createMonitor, Store.putMonitor]
    split
    · exact ⟨m, h, .same _ m⟩
    · dsimp only [change]
      split
      · refine ⟨m, List.mem_map.2 ⟨m, h, if_neg hne⟩, .same _ m⟩
      · exact ⟨m, List.mem_append_left _ h, .same _ m⟩
  | updateDefinition d =>
    simp only [perform, Store.updateDefinition]
    split
    · refine ⟨_, List.mem_map_of_mem h, ?_⟩
      split
      · next hid => exact .definition hid.symm
      · exact .same _ m
    · exact ⟨m, h, .same _ m⟩
  | advance id next =>
    obtain ⟨m', hm', rfl | ⟨rfl, rfl⟩⟩ := mem_reschedule_of_mem id _ _ h
    · exact ⟨m', hm', .same _ m'⟩
    · exact ⟨_, hm', .advance m next⟩
  | suspend id =>
    obtain ⟨m', hm', rfl | ⟨rfl, rfl⟩⟩ := mem_reschedule_of_mem id _ _ h
    · exact ⟨m', hm', .same _ m'⟩
    · exact ⟨_, hm', .suspend m⟩
  | resume id next =>
    obtain ⟨m', hm', rfl | ⟨rfl, rfl⟩⟩ := mem_reschedule_of_mem id _ _ h
    · exact ⟨m', hm', .same _ m'⟩
    · exact ⟨_, hm', .resume m next⟩
  | deleteMonitor id =>
    have hne : m.id ≠ id := fun heq => hdelete (heq ▸ rfl)
    exact ⟨m, List.mem_filter.2 ⟨h, by simpa using hne⟩, .same _ m⟩
  | _ => exact about_runs rfl

/-- Changing a monitor without changing its identifier changes no identifier. -/
theorem modifyMonitor_ids {id : Uuid} {f : Monitor → Monitor}
    (hf : ∀ m, m.id = id → (f m).id = id) :
    (s.modifyMonitor id f).monitors.map Monitor.id = s.monitors.map Monitor.id := by
  rw [Store.modifyMonitor, List.map_map]
  refine List.map_congr_left fun m _ => ?_
  show (if m.id = id then f m else m).id = m.id
  split
  · next hid => rw [hf m hid, hid]
  · rfl

theorem reschedule_ids {id : Uuid} {may : Monitor → Bool} {next : Option Timestamp} :
    (s.reschedule id may next now).1.monitors.map Monitor.id = s.monitors.map Monitor.id := by
  unfold Store.reschedule
  split
  · exact modifyMonitor_ids fun m hm => hm
  · rfl

/-- No call gives an identifier to two monitors. -/
theorem nodup_monitorIds_perform (h : (s.monitors.map Monitor.id).Nodup) :
    ((c.perform now s).2.monitors.map Monitor.id).Nodup := by
  have about_runs (hc : c.keepsMonitors = true) :
      ((c.perform now s).2.monitors.map Monitor.id).Nodup :=
    (monitors_perform hc).symm ▸ h
  cases c with
  | createMonitor d =>
    simp only [perform, Store.createMonitor, Store.putMonitor]
    split
    · exact h
    · dsimp only [change]
      split
      · rwa [modifyMonitor_ids fun _ _ => rfl]
      · next hnew =>
        rw [List.map_append, List.map_singleton]
        refine List.nodup_append.2 ⟨h, by simp, ?_⟩
        simp only [Store.findMonitor, List.find?_isSome, decide_eq_true_eq, not_exists,
          not_and] at hnew
        intro id hid id' hid'
        obtain ⟨m, hm, rfl⟩ := List.mem_map.1 hid
        rw [List.mem_singleton.1 hid']
        exact hnew m hm
  | updateDefinition d =>
    simp only [perform, Store.updateDefinition]
    split
    · dsimp only [change]
      rw [modifyMonitor_ids]
      · exact h
      · exact fun _ hm => hm
    · exact h
  | advance id next =>
    show ((s.reschedule id _ _ now).1.monitors.map Monitor.id).Nodup
    rwa [reschedule_ids]
  | suspend id =>
    show ((s.reschedule id _ _ now).1.monitors.map Monitor.id).Nodup
    rwa [reschedule_ids]
  | resume id next =>
    show ((s.reschedule id _ _ now).1.monitors.map Monitor.id).Nodup
    rwa [reschedule_ids]
  | deleteMonitor id => exact h.sublist (List.filter_sublist.map _)
  | _ => exact about_runs rfl

/-- After a deletion no monitor has the identifier. -/
theorem id_ne_of_mem_delete {id : Uuid} {m : Monitor}
    (h : m ∈ (perform now s (.deleteMonitor id)).2.monitors) : m.id ≠ id := by
  simpa using (List.mem_filter.1 h).2

/-- A schedule that has been changed is as it was to be. -/
theorem nextRun_of_reschedule {id : Uuid} {may : Monitor → Bool} {next : Option Timestamp}
    (hdone : (s.reschedule id may next now).2 = true) {m' : Monitor}
    (hm' : m' ∈ (s.reschedule id may next now).1.monitors) (heq : m'.id = id) :
    m'.nextRun = next := by
  unfold Store.reschedule at hdone hm'
  split at hdone
  · rw [if_pos ‹_›] at hm'
    obtain ⟨m, -, rfl⟩ := List.mem_map.1 hm'
    split at heq
    · next hid => rw [if_pos hid]
    · next hid => exact absurd heq hid
  · cases hdone

/-- The definition of a stored monitor can be overwritten. -/
theorem updateDefinition_answer {m d : Monitor} (hm : m ∈ s.monitors) (hid : d.id = m.id) :
    (perform now s (.updateDefinition d)).1 = .ok () := by
  have hfound : (s.findMonitor d.id).isSome = true :=
    List.find?_isSome.2 ⟨m, hm, decide_eq_true hid.symm⟩
  simp only [perform, Store.updateDefinition, hfound, if_true, change]

/-- A monitor stays in the store, under its name, when a definition is overwritten. -/
theorem exists_named_of_update {m : Monitor} (d : Monitor) (hm : m ∈ s.monitors) :
    ∃ m' ∈ (perform now s (.updateDefinition d)).2.monitors, m'.org = m.org ∧ m'.name = m.name := by
  have hstays : ∃ m' ∈ (perform now s (.updateDefinition d)).2.monitors,
      Rewrites now (.updateDefinition d) m m' :=
    mem_monitors_perform_of_mem hm (by simp) (by simp)
  obtain ⟨m', hm', hrewrites⟩ := hstays
  exact ⟨m', hm', hrewrites.org_eq, hrewrites.name_eq⟩

/-- A definition that has been overwritten is as it was to be, and the monitor is one that was
stored. -/
theorem definition_of_update {d m' : Monitor}
    (hok : (perform now s (.updateDefinition d)).1 = .ok ())
    (hm' : m' ∈ (perform now s (.updateDefinition d)).2.monitors) (heq : m'.id = d.id) :
    m'.displayName = d.displayName ∧ m'.evaluators = d.evaluators ∧
      m'.samplingRate = d.samplingRate ∧ m'.interval = d.interval := by
  simp only [perform, Store.updateDefinition] at hok hm'
  split at hok
  · next hfound =>
    rw [if_pos hfound] at hm'
    obtain ⟨m, -, rfl⟩ := List.mem_map.1 hm'
    split at heq
    · next hid => simp only [if_pos hid, and_self]
    · next hid => exact absurd heq hid
  · cases hok

/-- If no schedule has been changed, nothing has. -/
theorem reschedule_eq_self {id : Uuid} {may : Monitor → Bool} {next : Option Timestamp}
    (hnot : (s.reschedule id may next now).2 ≠ true) :
    (s.reschedule id may next now).1 = s := by
  unfold Store.reschedule at hnot ⊢
  split
  · rw [if_pos ‹_›] at hnot
    exact absurd rfl hnot
  · rfl

/-- The schedule of a monitor that is on it is moved on. -/
theorem nextRun_of_advance {id : Uuid} {next : Timestamp} {m' : Monitor}
    (hpresent : ∃ m ∈ s.monitors, m.id = id)
    (hactive : ∀ m ∈ s.monitors, m.id = id → m.nextRun.isSome = true)
    (h : m' ∈ (perform now s (.advance id next)).2.monitors) (heq : m'.id = id) :
    m'.nextRun = some next := by
  obtain ⟨m, hm, hid⟩ := hpresent
  obtain ⟨found, hfound⟩ : ∃ found, s.findMonitor id = some found :=
    Option.isSome_iff_exists.1 (List.find?_isSome.2 ⟨m, hm, by simpa using hid⟩)
  have hmay : (s.findMonitor id).any (fun m => m.nextRun.isSome) = true := by
    rw [hfound]
    exact hactive found (List.mem_of_find?_eq_some hfound) (by simpa using List.find?_some hfound)
  have hdone : (s.advance id next now).2 = true := by
    rw [Store.advance, Store.reschedule, if_pos hmay]
  exact nextRun_of_reschedule hdone h heq

/-- The schedule of a monitor that is off it stays as it is. -/
theorem advance_of_suspended {id : Uuid} {next : Timestamp}
    (hsuspended : ∀ m ∈ s.monitors, m.id = id → m.nextRun = none) :
    (perform now s (.advance id next)).2 = s := by
  have hmay : (s.findMonitor id).any (fun m => m.nextRun.isSome) = false := by
    cases hfound : s.findMonitor id with
    | none => rfl
    | some found =>
      have hnone := hsuspended found (List.mem_of_find?_eq_some hfound)
        (by simpa using List.find?_some hfound)
      simp [hnone]
  simp [perform, conditional, Store.advance, Store.reschedule, hmay]

/-- A monitor that has been suspended is off its schedule. -/
theorem nextRun_of_suspend {id : Uuid} (hdone : (perform now s (.suspend id)).1 = .ok true)
    {m' : Monitor} (h : m' ∈ (perform now s (.suspend id)).2.monitors) (heq : m'.id = id) :
    m'.nextRun = none :=
  nextRun_of_reschedule (Except.ok.inj hdone) h heq

/-- A resumption that is not made changes nothing. -/
theorem resume_of_ne {id : Uuid} {next : Timestamp}
    (hnot : (perform now s (.resume id next)).1 ≠ .ok true) :
    (perform now s (.resume id next)).2 = s :=
  reschedule_eq_self fun hdone => hnot (congrArg Except.ok hdone)

/-! ## Runs -/

/-- What a call may make of a stored run. -/
inductive Observes (now : Timestamp) : StoreCall → Run → Run → Prop
  | same (c : StoreCall) (r : Run) : Observes now c r r
  | status (r : Run) (status : RunStatus) (message : Option String) :
    Observes now (.updateStatus r.id status message) r
      { r with status, errorMessage := message, updatedAt := now }

namespace Observes

variable {r r' : Run}

theorem id_eq (h : Observes now c r r') : r'.id = r.id := by cases h <;> rfl

theorem monitorId_eq (h : Observes now c r r') : r'.monitorId = r.monitorId := by cases h <;> rfl

theorem jobName_eq (h : Observes now c r r') : r'.jobName = r.jobName := by cases h <;> rfl

end Observes

/-- A run in the store after a call has just been put there, or it was there before and the call
may have changed its status. -/
theorem mem_runs_perform {r' : Run} (h : r' ∈ (c.perform now s).2.runs) :
    c = .createRun r' ∨ ∃ r ∈ s.runs, Observes now c r r' := by
  have kept (hr' : r' ∈ s.runs) : c = .createRun r' ∨ ∃ r ∈ s.runs, Observes now c r r' :=
    .inr ⟨r', hr', .same c r'⟩
  have about_monitors (hc : c.keepsRuns = true) := kept (runs_perform hc ▸ h)
  cases c with
  | deleteMonitor id => exact kept (List.mem_filter.1 h).1
  | createRun d =>
    simp only [perform, Store.createRun, Store.putRun] at h
    split at h
    · dsimp only [change] at h
      split at h
      · obtain ⟨r, hr, rfl⟩ := List.mem_map.1 h
        split
        · exact .inl rfl
        · exact .inr ⟨r, hr, .same _ r⟩
      · rcases List.mem_append.1 h with h | h
        · exact kept h
        · exact .inl (congrArg _ (List.mem_singleton.1 h).symm)
    · exact kept h
  | updateStatus id status message =>
    simp only [perform, Store.updateStatus] at h
    split at h
    · obtain ⟨r, hr, rfl⟩ := List.mem_map.1 h
      refine .inr ⟨r, hr, ?_⟩
      split
      · next hid => exact hid ▸ .status r status message
      · exact .same _ r
    · exact kept h
  | _ => exact about_monitors rfl

/-- A run stays in the store, its status changed at most, unless a call deletes its monitor or puts
another run in its place. -/
theorem mem_runs_perform_of_mem {r : Run} (h : r ∈ s.runs)
    (hdelete : c ≠ .deleteMonitor r.monitorId) (hcreate : ∀ d, c = .createRun d → d.id ≠ r.id) :
    ∃ r' ∈ (c.perform now s).2.runs, Observes now c r r' := by
  have about_monitors (hc : c.keepsRuns = true) :
      ∃ r' ∈ (c.perform now s).2.runs, Observes now c r r' :=
    ⟨r, (runs_perform hc).symm ▸ h, .same c r⟩
  cases c with
  | deleteMonitor id =>
    have hne : r.monitorId ≠ id := fun heq => hdelete (heq ▸ rfl)
    exact ⟨r, List.mem_filter.2 ⟨h, by simpa using hne⟩, .same _ r⟩
  | createRun d =>
    have hne : r.id ≠ d.id := fun heq => hcreate d rfl heq.symm
    simp only [perform, Store.createRun, Store.putRun]
    split
    · dsimp only [change]
      split
      · exact ⟨r, List.mem_map.2 ⟨r, h, if_neg hne⟩, .same _ r⟩
      · exact ⟨r, List.mem_append_left _ h, .same _ r⟩
    · exact ⟨r, h, .same _ r⟩
  | updateStatus id status message =>
    simp only [perform, Store.updateStatus]
    split
    · refine ⟨_, List.mem_map_of_mem h, ?_⟩
      split
      · next hid => exact hid ▸ .status r status message
      · exact .same _ r
    · exact ⟨r, h, .same _ r⟩
  | _ => exact about_monitors rfl

/-- Changing a run without changing its identifier changes no identifier. -/
theorem modifyRun_ids {id : Uuid} {f : Run → Run} (hf : ∀ r, r.id = id → (f r).id = id) :
    (s.modifyRun id f).runs.map Run.id = s.runs.map Run.id := by
  rw [Store.modifyRun, List.map_map]
  refine List.map_congr_left fun r _ => ?_
  show (if r.id = id then f r else r).id = r.id
  split
  · next hid => rw [hf r hid, hid]
  · rfl

/-- No call gives an identifier to two runs. -/
theorem nodup_runIds_perform (h : (s.runs.map Run.id).Nodup) :
    ((c.perform now s).2.runs.map Run.id).Nodup := by
  have about_monitors (hc : c.keepsRuns = true) : ((c.perform now s).2.runs.map Run.id).Nodup :=
    (runs_perform hc).symm ▸ h
  cases c with
  | createRun d =>
    simp only [perform, Store.createRun, Store.putRun]
    split
    · dsimp only [change]
      split
      · rwa [modifyRun_ids fun _ _ => rfl]
      · next hnew =>
        rw [List.map_append, List.map_singleton]
        refine List.nodup_append.2 ⟨h, by simp, ?_⟩
        simp only [Store.findRun, List.find?_isSome, decide_eq_true_eq, not_exists,
          not_and] at hnew
        intro id hid id' hid'
        obtain ⟨r, hr, rfl⟩ := List.mem_map.1 hid
        rw [List.mem_singleton.1 hid']
        exact hnew r hr
    · exact h
  | updateStatus id status message =>
    simp only [perform, Store.updateStatus]
    split
    · dsimp only [change]
      rw [modifyRun_ids]
      · exact h
      · exact fun _ hr => hr
    · exact h
  | deleteMonitor id => exact h.sublist (List.filter_sublist.map _)
  | _ => exact about_monitors rfl

/-- A run in flight has not ended, and it is shown with the organization of its monitor. -/
theorem inFlightOf_eq_some {r : Run} {entry : InFlightRun} :
    s.inFlightOf r = some entry ↔ r.status.isTerminal = false ∧
      ∃ m, s.findMonitor r.monitorId = some m ∧ entry = ⟨r, m.org⟩ := by
  unfold Store.inFlightOf
  split
  · next hended => simp [hended]
  · next hopen =>
    rw [Option.map_eq_some_iff]
    simp [hopen, eq_comm]

/-- The status of a stored run can be overwritten. -/
theorem updateStatus_answer {r : Run} (hr : r ∈ s.runs) (status : RunStatus)
    (message : Option String) : (perform now s (.updateStatus r.id status message)).1 = .ok () := by
  have hfound : (s.findRun r.id).isSome = true := List.find?_isSome.2 ⟨r, hr, by simp⟩
  simp only [perform, Store.updateStatus, hfound, if_true, change]

/-- A run is recorded if its monitor is there, and added at the end if its identifier is unused. -/
theorem createRun_cases {after : Store} {r : Run} {answer : Except StoreError Unit}
    (h : (answer, after) = perform now s (.createRun r)) :
    (∃ e, answer = .error e ∧ after = s ∧ s.findMonitor r.monitorId = none) ∨
      (answer = .ok () ∧ (s.findRun r.id = none → after = ⟨s.monitors, s.runs ++ [r]⟩)) := by
  simp only [perform, Store.createRun] at h
  split at h
  · refine .inr ⟨congrArg Prod.fst h, fun hunused => ?_⟩
    have hafter : after = s.putRun r := congrArg Prod.snd h
    rw [hafter, Store.putRun, hunused]
    rfl
  · next hgone =>
    refine .inl ⟨_, congrArg Prod.fst h, congrArg Prod.snd h, ?_⟩
    simpa using hgone

/-- A run that has been recorded is in the store. -/
theorem mem_runs_create {r : Run} (h : (perform now s (.createRun r)).1 = .ok ()) :
    r ∈ (perform now s (.createRun r)).2.runs := by
  simp only [perform, Store.createRun, Store.putRun] at h ⊢
  split at h
  · rw [if_pos ‹_›]
    dsimp only [change]
    split
    · next hfound =>
      obtain ⟨old, hold, hid⟩ := List.find?_isSome.1 hfound
      exact List.mem_map.2 ⟨old, hold, if_pos (by simpa using hid)⟩
    · exact List.mem_append_right _ (List.mem_singleton_self r)
  · cases h

/-- After a deletion no run belongs to the monitor. -/
theorem monitorId_ne_of_mem_delete {id : Uuid} {r : Run}
    (h : r ∈ (perform now s (.deleteMonitor id)).2.runs) : r.monitorId ≠ id := by
  simpa using (List.mem_filter.1 h).2

end StoreCall

/-! ## What is listed -/

namespace Store

variable {s : Store}

/-- What is due is stored and due. -/
theorem mem_dueMonitors {now : Timestamp} {m : Monitor} :
    m ∈ s.dueMonitors now ↔ m ∈ s.monitors ∧ m.isDue now = true := by
  rw [dueMonitors, List.mem_mergeSort, List.mem_filter]

/-- No monitor is due twice. -/
theorem nodup_dueMonitors (h : (s.monitors.map Monitor.id).Nodup) (now : Timestamp) :
    ((s.dueMonitors now).map Monitor.id).Nodup := by
  rw [dueMonitors]
  refine ((List.mergeSort_perm _ _).map Monitor.id).nodup_iff.2 ?_
  exact h.sublist (List.filter_sublist.map _)

/-- A run in flight is stored and has not ended, and it is listed with the organization of its
monitor. -/
theorem mem_inFlight {entry : InFlightRun} :
    entry ∈ s.inFlight ↔ entry.run ∈ s.runs ∧ entry.run.status.isTerminal = false ∧
      ∃ m, s.findMonitor entry.run.monitorId = some m ∧ m.org = entry.org := by
  rw [inFlight, List.mem_mergeSort, List.mem_filterMap]
  constructor
  · rintro ⟨r, hr, hof⟩
    obtain ⟨hopen, m, hfound, rfl⟩ := StoreCall.inFlightOf_eq_some.1 hof
    exact ⟨hr, hopen, m, hfound, rfl⟩
  · rintro ⟨hr, hopen, m, hfound, horg⟩
    refine ⟨_, hr, StoreCall.inFlightOf_eq_some.2 ⟨hopen, m, hfound, ?_⟩⟩
    rw [horg]

/-- No run is in flight twice. -/
theorem nodup_inFlight (h : (s.runs.map Run.id).Nodup) :
    (s.inFlight.map fun entry => entry.run.id).Nodup := by
  rw [inFlight]
  refine ((List.mergeSort_perm _ _).map _).nodup_iff.2 (List.pairwise_map.2 ?_)
  refine List.Pairwise.filterMap _ (fun r r' hne entry hentry entry' hentry' => ?_)
    (List.pairwise_map.1 h)
  obtain ⟨-, m, -, rfl⟩ := StoreCall.inFlightOf_eq_some.1 hentry
  obtain ⟨-, m', -, rfl⟩ := StoreCall.inFlightOf_eq_some.1 hentry'
  exact hne

/-! ## What is read of runs -/

/-- The newest of runs is one of them. -/
theorem mem_of_newest {best : Option Run} {rs : List Run} {r : Run}
    (h : rs.foldl newer best = some r) : best = some r ∨ r ∈ rs := by
  induction rs generalizing best with
  | nil => exact .inl h
  | cons r' rs ih =>
    rcases ih h with hbest | hr
    · unfold newer at hbest
      split at hbest
      · exact .inr (Option.some.inj hbest ▸ .head _)
      · split at hbest
        · exact .inr (Option.some.inj hbest ▸ .head _)
        · exact .inl hbest
    · exact .inr (.tail _ hr)

theorem mem_runsOf {id : Uuid} {r : Run} : r ∈ s.runsOf id ↔ r ∈ s.runs ∧ r.monitorId = id := by
  simp [runsOf]

/-- The latest run of a monitor is stored, and it is of the monitor. -/
theorem of_latestRun {id : Uuid} {r : Run} (h : s.latestRun id = some r) :
    r ∈ s.runs ∧ r.monitorId = id :=
  mem_runsOf.1 ((mem_of_newest h).resolve_left nofun)

/-- What is listed of the runs of a monitor is stored, and it is of the monitor. -/
theorem of_mem_listRuns {id : Uuid} {limit : Option Nat} {r : Run}
    (hr : r ∈ s.listRuns id limit) : r ∈ s.runs ∧ r.monitorId = id := by
  have hsorted : r ∈ (s.runsOf id).mergeSort fun a b => b.createdAt ≤ a.createdAt := by
    cases limit with
    | none => exact hr
    | some n => exact List.mem_of_mem_take hr
  exact mem_runsOf.1 (List.mem_mergeSort.1 hsorted)

end Store

end TraceWatch
