import TraceWatch.Proofs.Store.Consistency

/-!
# The share of an organization in the store

A store is divided among organizations: `Store.within` is the share of one, and `Store.beyond` is
what belongs to the others. A call stays within a share if it is answered from the share alone,
changes it as it would change a store that holds nothing else, and changes nothing beyond it
(`StoreCall.StaysWithin`). A call about a monitor stays within the share of the organization that
owns it, and so does one that adds a monitor or a run under an identifier not in use.
-/

namespace TraceWatch

namespace Store

/-- Whether an organization has a monitor with the identifier. -/
def owns (s : Store) (org : String) (id : Uuid) : Bool :=
  s.monitors.any fun m => m.org = org && m.id = id

/-- The monitors of an organization and their runs. -/
def within (s : Store) (org : String) : Store where
  monitors := s.monitors.filter (·.org = org)
  runs := s.runs.filter fun r => s.owns org r.monitorId

/-- The monitors and runs of the other organizations. -/
def beyond (s : Store) (org : String) : Store where
  monitors := s.monitors.filter (·.org ≠ org)
  runs := s.runs.filter fun r => !s.owns org r.monitorId

/-- The identifier is that of no monitor and of no run. -/
structure Lacks (s : Store) (id : Uuid) : Prop where
  monitor : s.findMonitor id = none
  run : s.findRun id = none

instance (s : Store) (id : Uuid) : Decidable (s.Lacks id) :=
  decidable_of_iff (s.findMonitor id = none ∧ s.findRun id = none)
    ⟨fun h => ⟨h.1, h.2⟩, fun h => ⟨h.1, h.2⟩⟩

variable {s : Store} {org : String} {id : Uuid}

theorem owns_iff : s.owns org id = true ↔ ∃ m ∈ s.monitors, m.org = org ∧ m.id = id := by
  simp [owns]

/-- A monitor with an identifier that an organization owns belongs to it. -/
theorem org_of_owns (hids : (s.monitors.map Monitor.id).Nodup) {m : Monitor} (hm : m ∈ s.monitors)
    (h : s.owns org m.id = true) : m.org = org := by
  obtain ⟨m', hm', horg, hid⟩ := owns_iff.1 h
  rwa [← List.inj_on_of_nodup_map hids hm' hm hid]

/-! ## What is found in a share -/

/-- A monitor of the organization is found by its name in the share. -/
theorem findByName_within (s : Store) (org name : String) :
    (s.within org).findByName org name = s.findByName org name := by
  simp only [findByName, within, List.find?_filter]
  congr 1
  funext m
  simp

theorem listMonitors_within (s : Store) (org : String) (filter : MonitorFilter) :
    (s.within org).listMonitors org filter = s.listMonitors org filter := by
  simp only [listMonitors, within, List.filter_filter]
  congr 2
  funext m
  by_cases horg : m.org = org <;> simp [horg]

/-- A monitor that the organization owns is found by its identifier in the share. -/
theorem findMonitor_within (hids : (s.monitors.map Monitor.id).Nodup)
    (h : s.owns org id = true) : (s.within org).findMonitor id = s.findMonitor id := by
  obtain ⟨m, hm, horg, rfl⟩ := owns_iff.1 h
  have hids' : ((s.within org).monitors.map Monitor.id).Nodup :=
    hids.sublist (List.filter_sublist.map _)
  have hm' : m ∈ (s.within org).monitors := List.mem_filter.2 ⟨hm, decide_eq_true horg⟩
  rw [findMonitor_of_mem hids hm, findMonitor_of_mem hids' hm']

/-- The runs of a monitor that the organization owns are all in the share. -/
theorem runsOf_within (h : s.owns org id = true) : (s.within org).runsOf id = s.runsOf id := by
  rw [runsOf, within, List.filter_filter, runsOf]
  refine List.filter_congr fun r _ => ?_
  by_cases hid : r.monitorId = id <;> simp [hid, h]

/-- In the share a run is found by its identifier if it is the organization's. -/
theorem findRun_within (hids : (s.runs.map Run.id).Nodup) :
    (s.within org).findRun id = (s.findRun id).filter fun r => s.owns org r.monitorId := by
  cases hfind : (s.within org).findRun id with
  | none =>
    symm
    rw [Option.filter_eq_none_iff]
    intro r hr
    have hid : r.id = id := by simpa using List.find?_some hr
    intro howns
    have hr' : r ∈ (s.within org).runs :=
      List.mem_filter.2 ⟨List.mem_of_find?_eq_some hr, howns⟩
    simpa [hid] using List.find?_eq_none.1 hfind r hr'
  | some r =>
    have hid : r.id = id := by simpa using List.find?_some hfind
    obtain ⟨hr, howns⟩ := List.mem_filter.1 (List.mem_of_find?_eq_some hfind)
    rw [← hid, findRun_of_mem hids hr, Option.filter, if_pos howns]

/-! ## What is changed in a share -/

/-- Changing a monitor without changing whose it is leaves the organizations their monitors. -/
theorem owns_modifyMonitor {f : Monitor → Monitor} (hid : ∀ m, (f m).id = m.id)
    (horg : ∀ m, (f m).org = m.org) {id' : Uuid} :
    (s.modifyMonitor id f).owns org id' = s.owns org id' := by
  simp only [owns, modifyMonitor, List.any_map]
  congr 1
  funext m
  simp only [Function.comp_apply]
  split <;> simp [hid, horg]

theorem within_modifyMonitor {f : Monitor → Monitor} (hid : ∀ m, (f m).id = m.id)
    (horg : ∀ m, (f m).org = m.org) :
    (s.modifyMonitor id f).within org = (s.within org).modifyMonitor id f := by
  have hmonitors : (s.monitors.map fun m => if m.id = id then f m else m).filter (·.org = org) =
      (s.monitors.filter (·.org = org)).map fun m => if m.id = id then f m else m := by
    rw [List.filter_map]
    congr 2
    funext m
    simp only [Function.comp_apply]
    split <;> simp [horg]
  simp only [within, owns_modifyMonitor hid horg]
  simp only [modifyMonitor, hmonitors]

/-- A change of a monitor that the organization owns is none for the others. -/
theorem beyond_modifyMonitor {f : Monitor → Monitor} (hid : ∀ m, (f m).id = m.id)
    (horg : ∀ m, (f m).org = m.org) (hids : (s.monitors.map Monitor.id).Nodup)
    (h : s.owns org id = true) : (s.modifyMonitor id f).beyond org = s.beyond org := by
  have hothers : ∀ m ∈ s.monitors.filter (·.org ≠ org), (if m.id = id then f m else m) = m := by
    intro m hm
    obtain ⟨hm, hne⟩ := List.mem_filter.1 hm
    refine if_neg fun heq => ?_
    exact of_decide_eq_true hne (org_of_owns hids hm (heq ▸ h))
  have hmonitors : (s.monitors.map fun m => if m.id = id then f m else m).filter (·.org ≠ org) =
      s.monitors.filter (·.org ≠ org) := by
    rw [List.filter_map]
    refine Eq.trans (congrArg (List.map _) (List.filter_congr fun m _ => ?_))
      ((List.map_congr_left hothers).trans (List.map_id' _))
    simp only [Function.comp_apply]
    split <;> simp [horg]
  simp only [beyond, owns_modifyMonitor hid horg]
  simp only [modifyMonitor, hmonitors]

theorem owns_reschedule {id' : Uuid} {may : Monitor → Bool} {next : Option Timestamp}
    {now : Timestamp} :
    (s.reschedule id may next now).1.owns org id' = s.owns org id' := by
  unfold reschedule
  split
  · refine owns_modifyMonitor (fun _ => ?_) fun _ => ?_ <;> rfl
  · rfl

/-- A conditional change of a schedule depends on the share of the organization that owns the
monitor. -/
theorem reschedule_within (hids : (s.monitors.map Monitor.id).Nodup) (h : s.owns org id = true)
    (may : Monitor → Bool) (next : Option Timestamp) (now : Timestamp) :
    ((s.within org).reschedule id may next now).2 = (s.reschedule id may next now).2 ∧
      (s.reschedule id may next now).1.within org =
        ((s.within org).reschedule id may next now).1 ∧
      (s.reschedule id may next now).1.beyond org = s.beyond org := by
  unfold reschedule
  rw [findMonitor_within hids h]
  split
  · exact ⟨rfl, within_modifyMonitor (fun _ => rfl) fun _ => rfl,
      beyond_modifyMonitor (fun _ => rfl) (fun _ => rfl) hids h⟩
  · exact ⟨rfl, rfl, rfl⟩

theorem owns_deleteMonitor {id' : Uuid} (hne : id' ≠ id) :
    (s.deleteMonitor id).owns org id' = s.owns org id' := by
  simp only [owns, deleteMonitor, List.any_filter]
  congr 1
  funext m
  by_cases hid : m.id = id'
  · simp [hid, hne]
  · simp [hid]

theorem within_deleteMonitor (s : Store) (org : String) (id : Uuid) :
    (s.deleteMonitor id).within org = (s.within org).deleteMonitor id := by
  have hmonitors : (s.monitors.filter (·.id ≠ id)).filter (·.org = org) =
      (s.monitors.filter (·.org = org)).filter (·.id ≠ id) := List.filter_comm ..
  have hruns : (s.runs.filter (·.monitorId ≠ id)).filter
        (fun r => (s.deleteMonitor id).owns org r.monitorId) =
      (s.runs.filter fun r => s.owns org r.monitorId).filter (·.monitorId ≠ id) := by
    rw [List.filter_filter, List.filter_filter]
    refine List.filter_congr fun r _ => ?_
    by_cases hid : r.monitorId = id
    · simp [hid]
    · simp [hid, owns_deleteMonitor hid]
  exact congrArg₂ mk hmonitors hruns

/-- A deletion of a monitor that the organization owns is none for the others: the runs that go are
its own. -/
theorem beyond_deleteMonitor (hids : (s.monitors.map Monitor.id).Nodup)
    (h : s.owns org id = true) : (s.deleteMonitor id).beyond org = s.beyond org := by
  have hmonitors : (s.monitors.filter (·.id ≠ id)).filter (·.org ≠ org) =
      s.monitors.filter (·.org ≠ org) := by
    rw [List.filter_filter]
    refine List.filter_congr fun m hm => ?_
    by_cases hid : m.id = id
    · simp [org_of_owns hids hm (hid ▸ h)]
    · simp [hid]
  have hruns : (s.runs.filter (·.monitorId ≠ id)).filter
        (fun r => !(s.deleteMonitor id).owns org r.monitorId) =
      s.runs.filter fun r => !s.owns org r.monitorId := by
    rw [List.filter_filter]
    refine List.filter_congr fun r _ => ?_
    by_cases hid : r.monitorId = id
    · simp [hid, h]
    · simp [hid, owns_deleteMonitor hid]
  exact congrArg₂ mk hmonitors hruns

/-- A new monitor takes no run from anybody. -/
theorem owns_append (hs : s.IsConsistent) {d : Monitor} (hnew : s.findMonitor d.id = none)
    {r : Run} (hr : r ∈ s.runs) :
    owns ⟨s.monitors ++ [d], s.runs⟩ org r.monitorId = s.owns org r.monitorId := by
  obtain ⟨m, hm, hid⟩ := hs.owned r hr
  have hne : m.id ≠ d.id := by simpa using List.find?_eq_none.1 hnew m hm
  simp [owns, ← hid, hne.symm]

theorem within_append (hs : s.IsConsistent) {d : Monitor} (horg : d.org = org)
    (hnew : s.findMonitor d.id = none) :
    within ⟨s.monitors ++ [d], s.runs⟩ org =
      ⟨(s.within org).monitors ++ [d], (s.within org).runs⟩ := by
  refine congrArg₂ mk ?_ (List.filter_congr fun r hr => owns_append hs hnew hr)
  simp [within, List.filter_append, horg]

theorem beyond_append (hs : s.IsConsistent) {d : Monitor} (horg : d.org = org)
    (hnew : s.findMonitor d.id = none) :
    beyond ⟨s.monitors ++ [d], s.runs⟩ org = s.beyond org := by
  refine congrArg₂ mk ?_ (List.filter_congr fun r hr => congrArg not (owns_append hs hnew hr))
  simp [List.filter_append, horg]

theorem within_appendRun {r : Run} (h : s.owns org r.monitorId = true) :
    within ⟨s.monitors, s.runs ++ [r]⟩ org =
      ⟨(s.within org).monitors, (s.within org).runs ++ [r]⟩ := by
  refine congrArg (mk _) ?_
  rw [List.filter_append]
  exact congrArg _ (List.filter_cons_of_pos h)

theorem beyond_appendRun {r : Run} (h : s.owns org r.monitorId = true) :
    beyond ⟨s.monitors, s.runs ++ [r]⟩ org = s.beyond org := by
  refine congrArg (mk _) ?_
  rw [List.filter_append]
  refine (congrArg _ (List.filter_cons_of_neg ?_)).trans (List.append_nil _)
  exact Bool.eq_false_iff.1 (congrArg not h)

end Store

namespace StoreCall

variable {now : Timestamp} {s : Store} {org : String}

/-- The call is answered from the share of an organization, changes it as it would change a store
that holds nothing else, and changes nothing beyond it. -/
structure StaysWithin (org : String) (now : Timestamp) (s : Store) (c : StoreCall) : Prop where
  answer : (c.perform now (s.within org)).1 = (c.perform now s).1
  share : (c.perform now s).2.within org = (c.perform now (s.within org)).2
  rest : (c.perform now s).2.beyond org = s.beyond org

/-- A call that changes nothing stays within a share if it is answered from it. -/
theorem StaysWithin.of_isRead {c : StoreCall} (hread : c.isRead = true)
    (h : (c.perform now (s.within org)).1 = (c.perform now s).1) : c.StaysWithin org now s where
  answer := h
  share := by rw [perform_of_isRead hread, perform_of_isRead hread]
  rest := by rw [perform_of_isRead hread]

theorem findByName_staysWithin (s : Store) (org name : String) :
    (findByName org name).StaysWithin org now s :=
  .of_isRead rfl (congrArg Except.ok (s.findByName_within org name))

theorem listMonitors_staysWithin (s : Store) (org : String) (filter : MonitorFilter) :
    (listMonitors org filter).StaysWithin org now s :=
  .of_isRead rfl (congrArg Except.ok (s.listMonitors_within org filter))

theorem latestRun_staysWithin {id : Uuid} (h : s.owns org id = true) :
    (latestRun id).StaysWithin org now s := by
  refine .of_isRead rfl (congrArg Except.ok ?_)
  rw [Store.latestRun, Store.runsOf_within h, Store.latestRun]

theorem listRuns_staysWithin {id : Uuid} (h : s.owns org id = true) (limit : Option Nat) :
    (listRuns id limit).StaysWithin org now s := by
  refine .of_isRead rfl (congrArg Except.ok ?_)
  simp only [Store.listRuns, Store.runsOf_within h]

/-- A conditional change of a schedule stays within the share of the owner. -/
theorem suspend_staysWithin (hids : (s.monitors.map Monitor.id).Nodup) {id : Uuid}
    (h : s.owns org id = true) : (suspend id).StaysWithin org now s := by
  obtain ⟨hanswer, hshare, hrest⟩ := Store.reschedule_within hids h
    (fun m => m.isFuture && m.nextRun.isSome) none now
  exact ⟨congrArg Except.ok hanswer, hshare, hrest⟩

theorem resume_staysWithin (hids : (s.monitors.map Monitor.id).Nodup) {id : Uuid}
    (h : s.owns org id = true) (next : Timestamp) : (resume id next).StaysWithin org now s := by
  obtain ⟨hanswer, hshare, hrest⟩ := Store.reschedule_within hids h
    (fun m => m.isFuture && m.nextRun.isNone) (some next) now
  exact ⟨congrArg Except.ok hanswer, hshare, hrest⟩

theorem updateDefinition_staysWithin (hids : (s.monitors.map Monitor.id).Nodup) {d : Monitor}
    (h : s.owns org d.id = true) : (updateDefinition d).StaysWithin org now s := by
  obtain ⟨m, hm, -, hid⟩ := Store.owns_iff.1 h
  have hfound : (s.findMonitor d.id).isSome = true :=
    List.find?_isSome.2 ⟨m, hm, decide_eq_true hid⟩
  have hfound' : ((s.within org).findMonitor d.id).isSome = true := by
    rwa [Store.findMonitor_within hids h]
  constructor <;> simp only [perform, Store.updateDefinition, hfound, hfound', if_true, change]
  · exact Store.within_modifyMonitor (fun _ => rfl) fun _ => rfl
  · exact Store.beyond_modifyMonitor (fun _ => rfl) (fun _ => rfl) hids h

/-- A deletion stays within the share of the owner. -/
theorem deleteMonitor_staysWithin (hids : (s.monitors.map Monitor.id).Nodup) {id : Uuid}
    (h : s.owns org id = true) : (deleteMonitor id).StaysWithin org now s :=
  ⟨rfl, s.within_deleteMonitor org id, Store.beyond_deleteMonitor hids h⟩

/-- A monitor added under a new identifier is added to the share of its organization. -/
theorem createMonitor_staysWithin (hs : s.IsConsistent) {d : Monitor} (horg : d.org = org)
    (hnew : s.findMonitor d.id = none) : (createMonitor d).StaysWithin org now s := by
  have hnew' : (s.within org).findMonitor d.id = none :=
    List.find?_eq_none.2 fun m hm => List.find?_eq_none.1 hnew m (List.mem_filter.1 hm).1
  have hname : (s.within org).findByName d.org d.name = s.findByName d.org d.name := by
    rw [horg, Store.findByName_within]
  constructor <;>
    simp only [perform, Store.createMonitor, hname, Store.putMonitor, hnew, hnew',
      Option.isSome_none, Bool.false_eq_true, if_false] <;> split
  · rfl
  · rfl
  · rfl
  · exact Store.within_append hs horg hnew
  · rfl
  · exact Store.beyond_append hs horg hnew

/-- A run added under a new identifier is added to the share of its owner. -/
theorem createRun_staysWithin (hids : (s.monitors.map Monitor.id).Nodup) {r : Run}
    (h : s.owns org r.monitorId = true) (hnew : s.findRun r.id = none) :
    (createRun r).StaysWithin org now s := by
  have hnew' : (s.within org).findRun r.id = none :=
    List.find?_eq_none.2 fun r' hr' => List.find?_eq_none.1 hnew r' (List.mem_filter.1 hr').1
  constructor <;>
    simp only [perform, Store.createRun, Store.findMonitor_within hids h, Store.putRun, hnew,
      hnew', Option.isSome_none, Bool.false_eq_true, if_false] <;> split
  · rfl
  · rfl
  · exact Store.within_appendRun h
  · rfl
  · exact Store.beyond_appendRun h
  · rfl

end StoreCall

end TraceWatch
