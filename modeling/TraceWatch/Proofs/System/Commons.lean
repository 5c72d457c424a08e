import TraceWatch.Proofs.Store.Frame
import TraceWatch.Proofs.System.Site

/-!
# What an answer does to the commons

Each part of the commons is moved by one sort of call: the store by calls of the store, the lock by
its two calls, the identifiers by drawing one, and the clock by none.
-/

namespace TraceWatch

namespace Commons

variable {w w' : Commons} {task : Nat} {c : Call} {answer : c.Answer}

namespace Answers

/-- A call changes at most one part, and which one it is depends on the call. -/
theorem change (h : w.Answers task c answer w') :
    w' = w ∨ (c = .freshId ∧ ∃ issued, w' = { w with issued }) ∨
      ((c = .acquireLock ∨ c = .releaseLock) ∧ ∃ holder, w' = { w with holder }) ∨
      ((∃ d, c = .store d) ∧ ∃ store, w' = { w with store }) := by
  cases c with
  | now => exact .inl h.2
  | cancelled | count | plane => exact .inl h
  | freshId => exact .inr (.inl ⟨rfl, _, h.2⟩)
  | acquireLock =>
    rcases h with ⟨-, -, htaken⟩ | ⟨-, -, hsame⟩
    · exact .inr (.inr (.inl ⟨.inl rfl, _, htaken⟩))
    · exact .inl hsame
  | releaseLock =>
    rw [h.2, freeLock]
    split
    · exact .inr (.inr (.inl ⟨.inr rfl, _, rfl⟩))
    · exact .inl rfl
  | store d => exact .inr (.inr (.inr ⟨⟨d, rfl⟩, _, h.2⟩))

theorem clock_eq (h : w.Answers task c answer w') : w'.clock = w.clock := by
  rcases h.change with rfl | ⟨-, _, rfl⟩ | ⟨-, _, rfl⟩ | ⟨-, _, rfl⟩ <;> rfl

theorem store_eq (h : w.Answers task c answer w') (hc : ∀ d, c ≠ .store d) :
    w'.store = w.store := by
  rcases h.change with rfl | ⟨-, _, rfl⟩ | ⟨-, _, rfl⟩ | ⟨⟨d, hd⟩, -⟩
  · rfl
  · rfl
  · rfl
  · exact absurd hd (hc d)

/-- What is stored is as before, or as a call of the store has made it. -/
theorem store_cases (h : w.Answers task c answer w') :
    (∃ d, c = .store d ∧ w'.store = (d.perform w.clock w.store).2) ∨ w'.store = w.store := by
  by_cases hc : ∃ d, c = .store d
  · obtain ⟨d, rfl⟩ := hc
    rw [h.2]
    exact .inl ⟨d, rfl, rfl⟩
  · exact .inr (h.store_eq fun d hd => hc ⟨d, hd⟩)

theorem issued_eq (h : w.Answers task c answer w') (hc : c ≠ .freshId) :
    w'.issued = w.issued := by
  rcases h.change with rfl | ⟨hdraw, -⟩ | ⟨-, _, rfl⟩ | ⟨-, _, rfl⟩
  · rfl
  · exact absurd hdraw hc
  · rfl
  · rfl

theorem holder_eq (h : w.Answers task c answer w') (htake : c ≠ .acquireLock)
    (hfree : c ≠ .releaseLock) : w'.holder = w.holder := by
  rcases h.change with rfl | ⟨-, _, rfl⟩ | ⟨hlock, -⟩ | ⟨-, _, rfl⟩
  · rfl
  · rfl
  · exact hlock.elim (absurd · htake) (absurd · hfree)
  · rfl

/-- No identifier is forgotten. -/
theorem issued_mono (h : w.Answers task c answer w') {id : Uuid} (hid : id ∈ w.issued) :
    id ∈ w'.issued := by
  by_cases hc : c = .freshId
  · subst hc
    rw [h.2]
    exact .tail _ hid
  · rwa [h.issued_eq hc]

/-- A monitor in the store after a call has just been put there, or it was there before and the
call may have rewritten it. -/
theorem mem_monitors (h : w.Answers task c answer w') {m' : Monitor}
    (hm' : m' ∈ w'.store.monitors) :
    c = .store (.createMonitor m') ∨ ∃ m ∈ w.store.monitors,
      m' = m ∨ ∃ d, c = .store d ∧ d.Rewrites w.clock m m' := by
  rcases h.store_cases with ⟨d, rfl, hstore⟩ | hsame
  · rw [hstore] at hm'
    rcases StoreCall.mem_monitors_perform hm' with rfl | ⟨m, hm, hrewrites⟩
    · exact .inl rfl
    · exact .inr ⟨m, hm, .inr ⟨d, rfl, hrewrites⟩⟩
  · exact .inr ⟨m', hsame ▸ hm', .inl rfl⟩

/-- A monitor stays in the store, rewritten at most, unless a call deletes it or puts another in its
place. -/
theorem mem_monitors_of_mem (h : w.Answers task c answer w') {m : Monitor}
    (hm : m ∈ w.store.monitors) (hdelete : c ≠ .store (.deleteMonitor m.id))
    (hcreate : ∀ d, c = .store (.createMonitor d) → d.id ≠ m.id) :
    ∃ m' ∈ w'.store.monitors, m' = m ∨ ∃ d, c = .store d ∧ d.Rewrites w.clock m m' := by
  rcases h.store_cases with ⟨d, rfl, hstore⟩ | hsame
  · have hstays : ∃ m' ∈ (d.perform w.clock w.store).2.monitors, d.Rewrites w.clock m m' :=
      StoreCall.mem_monitors_perform_of_mem hm (fun heq => hdelete (congrArg _ heq))
        fun d' heq => hcreate d' (congrArg _ heq)
    obtain ⟨m', hm', hrewrites⟩ := hstays
    exact ⟨m', hstore ▸ hm', .inr ⟨d, rfl, hrewrites⟩⟩
  · exact ⟨m, hsame ▸ hm, .inl rfl⟩

/-- A run in the store after a call has just been put there, or it was there before and the call
may have changed its status. -/
theorem mem_runs (h : w.Answers task c answer w') {r' : Run} (hr' : r' ∈ w'.store.runs) :
    c = .store (.createRun r') ∨ ∃ r ∈ w.store.runs,
      r' = r ∨ ∃ d, c = .store d ∧ d.Observes w.clock r r' := by
  rcases h.store_cases with ⟨d, rfl, hstore⟩ | hsame
  · rw [hstore] at hr'
    rcases StoreCall.mem_runs_perform hr' with rfl | ⟨r, hr, hobserves⟩
    · exact .inl rfl
    · exact .inr ⟨r, hr, .inr ⟨d, rfl, hobserves⟩⟩
  · exact .inr ⟨r', hsame ▸ hr', .inl rfl⟩

/-- A run stays in the store, its status changed at most, unless a call deletes its monitor or puts
another run in its place. -/
theorem mem_runs_of_mem (h : w.Answers task c answer w') {r : Run} (hr : r ∈ w.store.runs)
    (hdelete : c ≠ .store (.deleteMonitor r.monitorId))
    (hcreate : ∀ d, c = .store (.createRun d) → d.id ≠ r.id) :
    ∃ r' ∈ w'.store.runs, r' = r ∨ ∃ d, c = .store d ∧ d.Observes w.clock r r' := by
  rcases h.store_cases with ⟨d, rfl, hstore⟩ | hsame
  · have hstays : ∃ r' ∈ (d.perform w.clock w.store).2.runs, d.Observes w.clock r r' :=
      StoreCall.mem_runs_perform_of_mem hr (fun heq => hdelete (congrArg _ heq))
        fun d' heq => hcreate d' (congrArg _ heq)
    obtain ⟨r', hr', hobserves⟩ := hstays
    exact ⟨r', hstore ▸ hr', .inr ⟨d, rfl, hobserves⟩⟩
  · exact ⟨r, hsame ▸ hr, .inl rfl⟩

theorem nodup_monitorIds (h : w.Answers task c answer w')
    (hnodup : (w.store.monitors.map Monitor.id).Nodup) :
    (w'.store.monitors.map Monitor.id).Nodup := by
  rcases h.store_cases with ⟨d, -, hstore⟩ | hsame
  · rw [hstore]
    exact StoreCall.nodup_monitorIds_perform hnodup
  · rwa [hsame]

theorem nodup_runIds (h : w.Answers task c answer w') (hnodup : (w.store.runs.map Run.id).Nodup) :
    (w'.store.runs.map Run.id).Nodup := by
  rcases h.store_cases with ⟨d, -, hstore⟩ | hsame
  · rw [hstore]
    exact StoreCall.nodup_runIds_perform hnodup
  · rwa [hsame]

/-- What is found by name is in the store. -/
theorem mem_of_findByName {org name : String} {m : Monitor}
    (h : w.Answers task (.store (.findByName org name)) (.ok (some m)) w') :
    m ∈ w.store.monitors :=
  List.mem_of_find?_eq_some (Except.ok.inj h.1).symm

/-- What is due is in the store, and due. -/
theorem mem_of_dueMonitors {now : Timestamp} {due : List Monitor}
    (h : w.Answers task (.store (.dueMonitors now)) (.ok due) w') {m : Monitor} (hm : m ∈ due) :
    m ∈ w.store.monitors ∧ m.isDue now = true := by
  have hdue : due = w.store.dueMonitors now := Except.ok.inj h.1
  exact Store.mem_dueMonitors.1 (hdue ▸ hm)

/-- No monitor is due twice. -/
theorem nodup_of_dueMonitors {now : Timestamp} {due : List Monitor}
    (h : w.Answers task (.store (.dueMonitors now)) (.ok due) w')
    (hnodup : (w.store.monitors.map Monitor.id).Nodup) : (due.map Monitor.id).Nodup := by
  have hdue : due = w.store.dueMonitors now := Except.ok.inj h.1
  exact hdue ▸ Store.nodup_dueMonitors hnodup now

/-- The runs of a monitor are all listed. -/
theorem mem_of_listRuns {id : Uuid} {runs : List Run}
    (h : w.Answers task (.store (.listRuns id none)) (.ok runs) w') {r : Run} :
    r ∈ runs ↔ r ∈ w.store.runs ∧ r.monitorId = id := by
  have hruns : runs = w.store.listRuns id none := Except.ok.inj h.1
  rw [hruns]
  simp [Store.listRuns, Store.runsOf]

/-- A run in flight is stored and has not ended, and its organization is that of its monitor. -/
theorem mem_of_inFlight {entries : List InFlightRun}
    (h : w.Answers task (.store .inFlight) (.ok entries) w') {entry : InFlightRun}
    (hentry : entry ∈ entries) :
    entry.run ∈ w.store.runs ∧ entry.run.status.isTerminal = false ∧
      ∃ m ∈ w.store.monitors, m.id = entry.run.monitorId ∧ m.org = entry.org := by
  have heq : entries = w.store.inFlight := Except.ok.inj h.1
  obtain ⟨hr, hopen, m, hfound, horg⟩ := Store.mem_inFlight.1 (heq ▸ hentry)
  have hid : m.id = entry.run.monitorId := by simpa using List.find?_some hfound
  exact ⟨hr, hopen, m, List.mem_of_find?_eq_some hfound, hid, horg⟩

/-- No run is in flight twice. -/
theorem nodup_of_inFlight {entries : List InFlightRun}
    (h : w.Answers task (.store .inFlight) (.ok entries) w')
    (hnodup : (w.store.runs.map Run.id).Nodup) : (entries.map fun entry => entry.run.id).Nodup := by
  have heq : entries = w.store.inFlight := Except.ok.inj h.1
  exact heq ▸ Store.nodup_inFlight hnodup

end Answers

end Commons

end TraceWatch
