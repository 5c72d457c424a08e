import TraceWatch.Proofs.Protocol.Reachable

/-!
# The consistency of the store

No identifier stands for two monitors, no name for two monitors of one organization, and every run
belongs to a monitor (`Store.IsConsistent`). Every call keeps it so, whoever makes it and whatever
its arguments: a monitor is added under a free name only, a run only beside its monitor, and a
monitor takes its runs along when it goes.
-/

namespace TraceWatch

/-- Names and identifiers are unique, and every run belongs to a monitor. -/
structure Store.IsConsistent (s : Store) : Prop where
  ids : (s.monitors.map Monitor.id).Nodup
  names : ∀ m ∈ s.monitors, ∀ m' ∈ s.monitors, m.org = m'.org → m.name = m'.name → m.id = m'.id
  owned : ∀ r ∈ s.runs, ∃ m ∈ s.monitors, m.id = r.monitorId

/-- The store is consistent, and no identifier stands for two runs. -/
structure Store.IsProper (s : Store) : Prop extends s.IsConsistent where
  runIds : (s.runs.map Run.id).Nodup

/-- A store that holds nothing is consistent. -/
theorem Store.isConsistent_empty : Store.empty.IsConsistent :=
  ⟨List.nodup_nil, List.forall_mem_nil _, List.forall_mem_nil _⟩

/-- A name that is not found is borne by no monitor of the organization. -/
theorem Store.name_ne_of_findByName {s : Store} {org name : String}
    (h : s.findByName org name = none) {m : Monitor} (hm : m ∈ s.monitors) (horg : m.org = org) :
    m.name ≠ name := by
  have hne := List.find?_eq_none.1 h m hm
  rw [decide_eq_true_eq] at hne
  exact fun hname => hne ⟨horg, hname⟩

/-- If no two runs have the same identifier, each is the one found by its own. -/
theorem Store.findRun_of_mem {s : Store} (hids : (s.runs.map Run.id).Nodup) {r : Run}
    (hr : r ∈ s.runs) : s.findRun r.id = some r := by
  cases hfind : s.findRun r.id with
  | none =>
    have hne := List.find?_eq_none.1 hfind r hr
    simp at hne
  | some r' =>
    have hid : r'.id = r.id := by simpa using List.find?_some hfind
    rw [List.inj_on_of_nodup_map hids (List.mem_of_find?_eq_some hfind) hr hid]

namespace Store.IsConsistent

variable {s : Store}

/-- Two monitors of one organization with the same name are one. -/
theorem eq_of_name (h : s.IsConsistent) {m m' : Monitor} (hm : m ∈ s.monitors)
    (hm' : m' ∈ s.monitors) (horg : m.org = m'.org) (hname : m.name = m'.name) : m = m' :=
  List.inj_on_of_nodup_map h.ids hm hm' (h.names m hm m' hm' horg hname)

/-- No two places of the store are taken by monitors of one organization with the same name. -/
theorem nodup_names (h : s.IsConsistent) :
    (s.monitors.map fun m => (m.org, m.name)).Nodup := by
  refine List.Nodup.map_on (fun m hm m' hm' heq => ?_) (List.Nodup.of_map _ h.ids)
  exact h.eq_of_name hm hm' (congrArg Prod.fst heq) (congrArg Prod.snd heq)

/-- A monitor is found by its name. -/
theorem findByName_eq (h : s.IsConsistent) {m : Monitor} (hm : m ∈ s.monitors) :
    s.findByName m.org m.name = some m := by
  cases hfind : s.findByName m.org m.name with
  | none => exact absurd rfl (name_ne_of_findByName hfind hm rfl)
  | some m' =>
    obtain ⟨horg, hname⟩ := Store.named_of_findByName hfind
    rw [h.eq_of_name (List.mem_of_find?_eq_some hfind) hm horg hname]

end Store.IsConsistent

namespace StoreCall

variable {now : Timestamp} {s : Store} {c : StoreCall}

/-- A monitor is added under a name that is free, or nothing is changed. -/
theorem createMonitor_cases (now : Timestamp) (s : Store) (d : Monitor) :
    (∃ what, perform now s (.createMonitor d) = (.error (.conflict what), s)) ∨
      (s.findByName d.org d.name = none ∧
        perform now s (.createMonitor d) = (.ok (), s.putMonitor d)) := by
  simp only [perform, Store.createMonitor]
  split
  · exact .inl ⟨_, rfl⟩
  · next hfree => exact .inr ⟨by simpa using hfree, rfl⟩

/-- A run is added beside its monitor, or nothing is changed. -/
theorem createRun_owned (now : Timestamp) (s : Store) (r : Run) :
    (∃ e, perform now s (.createRun r) = (.error e, s)) ∨
      ∃ m ∈ s.monitors, m.id = r.monitorId := by
  simp only [perform, Store.createRun]
  split
  · next hfound =>
    obtain ⟨m, hm, hid⟩ := List.find?_isSome.1 hfound
    exact .inr ⟨m, hm, by simpa using hid⟩
  · exact .inl ⟨_, rfl⟩

/-- A monitor that is put into the store is there. -/
theorem mem_putMonitor (d : Monitor) : d ∈ (s.putMonitor d).monitors := by
  unfold Store.putMonitor
  split
  · next hfound =>
    obtain ⟨m, hm, hid⟩ := List.find?_isSome.1 hfound
    exact List.mem_map.2 ⟨m, hm, if_pos (by simpa using hid)⟩
  · exact List.mem_append_right _ (.head _)

/-- After a call the identifier of a monitor is still that of one, unless the call deletes it. -/
theorem exists_id_perform {m : Monitor} (hm : m ∈ s.monitors) (hc : c ≠ .deleteMonitor m.id) :
    ∃ m' ∈ (c.perform now s).2.monitors, m'.id = m.id := by
  by_cases hcreate : ∃ d, c = .createMonitor d ∧ d.id = m.id
  · obtain ⟨d, rfl, hid⟩ := hcreate
    rcases createMonitor_cases now s d with ⟨_, heq⟩ | ⟨-, heq⟩
    · exact ⟨m, by rwa [heq], rfl⟩
    · exact ⟨d, by rw [heq]; exact mem_putMonitor d, hid⟩
  · obtain ⟨m', hm', hrewrites⟩ : ∃ m' ∈ (c.perform now s).2.monitors, c.Rewrites now m m' :=
      mem_monitors_perform_of_mem hm hc fun d hd hid => hcreate ⟨d, hd, hid⟩
    exact ⟨m', hm', hrewrites.id_eq⟩

/-- A call gives no name to two monitors of one organization. -/
theorem names_perform (h : s.IsConsistent) {m m' : Monitor}
    (hm : m ∈ (c.perform now s).2.monitors) (hm' : m' ∈ (c.perform now s).2.monitors)
    (horg : m.org = m'.org) (hname : m.name = m'.name) : m.id = m'.id := by
  -- a monitor just added bears a name that was free
  have apart : ∀ {d m' : Monitor}, c = .createMonitor d → m' ∈ s.monitors → d.org = m'.org →
      d.name = m'.name → (c.perform now s).2 = s := by
    rintro d m' rfl hm' horg hname
    rcases createMonitor_cases now s d with ⟨_, heq⟩ | ⟨hfree, -⟩
    · rw [heq]
    · exact absurd hname.symm (Store.name_ne_of_findByName hfree hm' horg.symm)
  rcases mem_monitors_perform hm with hc | ⟨m₁, hm₁, hrewrites⟩ <;>
    rcases mem_monitors_perform hm' with hc' | ⟨m₁', hm₁', hrewrites'⟩
  · cases hc.symm.trans hc'
    rfl
  · rw [hrewrites'.org_eq] at horg
    rw [hrewrites'.name_eq] at hname
    rw [apart hc hm₁' horg hname] at hm
    exact (h.names m hm m₁' hm₁' horg hname).trans hrewrites'.id_eq.symm
  · rw [hrewrites.org_eq] at horg
    rw [hrewrites.name_eq] at hname
    rw [apart hc' hm₁ horg.symm hname.symm] at hm'
    exact hrewrites.id_eq.trans (h.names m₁ hm₁ m' hm' horg hname)
  · rw [hrewrites.id_eq, hrewrites'.id_eq]
    rw [hrewrites.org_eq, hrewrites'.org_eq] at horg
    rw [hrewrites.name_eq, hrewrites'.name_eq] at hname
    exact h.names m₁ hm₁ m₁' hm₁' horg hname

/-- After a call every run belongs to a monitor. -/
theorem owned_perform (h : s.IsConsistent) {r' : Run} (hr' : r' ∈ (c.perform now s).2.runs) :
    ∃ m ∈ (c.perform now s).2.monitors, m.id = r'.monitorId := by
  have stays : ∀ {m : Monitor}, m ∈ s.monitors → m.id = r'.monitorId →
      ∃ m' ∈ (c.perform now s).2.monitors, m'.id = r'.monitorId := by
    intro m hm hid
    by_cases hc : c = .deleteMonitor m.id
    · -- the runs of a monitor that is deleted go with it
      rw [hc] at hr'
      exact absurd hid.symm (monitorId_ne_of_mem_delete hr')
    · obtain ⟨m', hm', hid'⟩ : ∃ m' ∈ (c.perform now s).2.monitors, m'.id = m.id :=
        exists_id_perform hm hc
      exact ⟨m', hm', hid'.trans hid⟩
  rcases mem_runs_perform hr' with rfl | ⟨r, hr, hobserves⟩
  · rcases createRun_owned now s r' with ⟨_, heq⟩ | ⟨m, hm, hid⟩
    · rw [heq] at hr' ⊢
      exact h.owned r' hr'
    · exact stays hm hid
  · obtain ⟨m, hm, hid⟩ := h.owned r hr
    exact stays hm (hid.trans hobserves.monitorId_eq.symm)

/-- Every call keeps the store consistent. -/
theorem isConsistent_perform (h : s.IsConsistent) : (c.perform now s).2.IsConsistent where
  ids := nodup_monitorIds_perform h.ids
  names := fun _ hm _ hm' => names_perform h hm hm'
  owned := fun _ hr => owned_perform h hr

end StoreCall

/-- The store stays consistent when a call is answered. -/
theorem Commons.Answers.isConsistent {w w' : Commons} {i : Nat} {c : Call} {answer : c.Answer}
    (h : w.Answers i c answer w') (hw : w.store.IsConsistent) : w'.store.IsConsistent := by
  rcases h.store_cases with ⟨d, -, hstore⟩ | hsame
  · rw [hstore]
    exact StoreCall.isConsistent_perform hw
  · rwa [hsame]

/-- In every reachable scene the store is consistent. -/
theorem Scene.Reachable.isConsistent {s : Scene} (h : s.Reachable) :
    s.commons.store.IsConsistent := by
  refine h.invariant (I := fun s => s.commons.store.IsConsistent) (fun w hstore _ => ?_)
    fun _ hs hstep => ?_
  · exact hstore ▸ Store.isConsistent_empty
  · rcases hstep.call_or_rests with ⟨i, a, c, answer, rfl⟩ | ⟨-, hrests⟩
    · cases hstep with
      | call _ hw => exact hw.isConsistent hs
    · exact hrests.store ▸ hs

/-- In every reachable scene no identifier stands for two runs either. -/
theorem Scene.Reachable.isProper {s : Scene} (h : s.Reachable) : s.commons.store.IsProper := by
  refine ⟨h.isConsistent, ?_⟩
  refine h.invariant (I := fun s => (s.commons.store.runs.map Run.id).Nodup) (fun w hstore _ => ?_)
    fun _ hs hstep => ?_
  · rw [show (ofCommons w).commons.store = .empty from hstore]
    exact List.nodup_nil
  · rcases hstep.call_or_rests with ⟨i, a, c, answer, rfl⟩ | ⟨-, hrests⟩
    · cases hstep with
      | call _ hw => exact hw.nodup_runIds hs
    · exact hrests.store ▸ hs

/-- The store of a reachable site is proper. -/
theorem Site.Reachable.isProper {s : Site} (h : s.Reachable) : s.commons.store.IsProper := by
  obtain ⟨g, hg, hseen⟩ := h.exists_scene
  exact hseen.commons ▸ hg.isProper

end TraceWatch
