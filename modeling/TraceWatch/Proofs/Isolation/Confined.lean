import TraceWatch.Proofs.Isolation.Share
import TraceWatch.Proofs.Monitors.Creation
import TraceWatch.Proofs.Schedule.Switch

/-!
# Programs confined to an organization

A program is confined to the share of an organization if each of its calls of the store stays within
the share, or is at least taken by the program as if it did: a run that belongs to another monitor
is treated like one that is missing (`Program.Confined`). Every operation of the manager is confined
to the organization it is addressed to.
-/

namespace TraceWatch

namespace Call

/-- Whether a call is one of the store. -/
def isStore : Call → Bool
  | store _ => true
  | _ => false

/-- An identifier has to be one that may be drawn; any other answer may come from outside the
store. -/
def Allows (Fresh : Uuid → Prop) : (c : Call) → c.Answer → Prop
  | freshId, id => Fresh id
  | _, _ => True

end Call

namespace Program

variable {α β : Type}

/-- The program, begun on the store, is confined to the share of an organization: it takes no notice
of anything beyond the share and changes nothing there. It comes to an end, with a value and a store
that are as `post` says. -/
inductive Confined (org : String) (Fresh : Uuid → Prop) (post : α → Store → Prop) :
    Program α → Store → Prop
  | done {v : α} {s : Store} : post v s → Confined org Fresh post (.done v) s
  | store {c : StoreCall} {next : (Call.store c).Answer → Program α} {s : Store} :
    (∀ now, next (c.perform now (s.within org)).1 = next (c.perform now s).1) →
    (∀ now, (c.perform now s).2.within org = (c.perform now (s.within org)).2) →
    (∀ now, (c.perform now s).2.beyond org = s.beyond org) →
    (∀ now, Confined org Fresh post (next (c.perform now s).1) (c.perform now s).2) →
      Confined org Fresh post (.call (.store c) next) s
  | ask {c : Call} {next : c.Answer → Program α} {s : Store} : c.isStore = false →
    (∀ answer, c.Allows Fresh answer → Confined org Fresh post (next answer) s) →
      Confined org Fresh post (.call c next) s

namespace Confined

variable {org : String} {Fresh : Uuid → Prop} {post : α → Store → Prop} {s : Store}

/-- A confined program that goes on with a confined one is confined. -/
theorem bind {post' : β → Store → Prop} {f : α → Program β} {p : Program α}
    (h : Confined org Fresh post p s)
    (hf : ∀ v s', post v s' → Confined org Fresh post' (f v) s') :
    Confined org Fresh post' (p.bind f) s := by
  induction h with
  | done hv => exact hf _ _ hv
  | store hnext hshare hrest _ ih =>
    exact .store (fun now => congrArg (Program.bind · f) (hnext now)) hshare hrest ih
  | ask hc _ ih => exact .ask hc ih

theorem mono {post' : α → Store → Prop} {p : Program α} (h : Confined org Fresh post p s)
    (hpost : ∀ v s', post v s' → post' v s') : Confined org Fresh post' p s := by
  induction h with
  | done hv => exact .done (hpost _ _ hv)
  | store hnext hshare hrest _ ih => exact .store hnext hshare hrest ih
  | ask hc _ ih => exact .ask hc ih

/-- A call of the store that stays within the share. -/
theorem call {c : StoreCall} {next : (Call.store c).Answer → Program α}
    (h : ∀ now, c.StaysWithin org now s)
    (hnext : ∀ now, Confined org Fresh post (next (c.perform now s).1) (c.perform now s).2) :
    Confined org Fresh post (.call (.store c) next) s :=
  .store (fun now => congrArg next (h now).answer) (fun now => (h now).share)
    (fun now => (h now).rest) hnext

/-- A reading call of the store that is answered from the share. -/
theorem read {c : StoreCall} {next : (Call.store c).Answer → Program α}
    (hread : c.isRead = true) {answer : Except StoreError c.Answer}
    (hanswer : ∀ now, (c.perform now s).1 = answer)
    (hshare : ∀ now, (c.perform now (s.within org)).1 = (c.perform now s).1)
    (hnext : Confined org Fresh post (next answer) s) :
    Confined org Fresh post (.call (.store c) next) s := by
  refine .call (fun now => .of_isRead hread (hshare now)) fun now => ?_
  rwa [StoreCall.perform_of_isRead hread, hanswer]

/-- A search for a run whose outcome leads on as if the runs of others were missing. -/
theorem findRun (hids : (s.runs.map Run.id).Nodup) {id : Uuid}
    {next : Except StoreError (Option Run) → Program α}
    (hforeign : ∀ r, s.owns org r.monitorId = false → next (.ok (some r)) = next (.ok none))
    (hmissing : Confined org Fresh post (next (.ok none)) s)
    (hfound : ∀ r, s.owns org r.monitorId = true →
      Confined org Fresh post (next (.ok (some r))) s) :
    Confined org Fresh post (.call (.store (.findRun id)) next) s := by
  have hnext : next (.ok ((s.within org).findRun id)) = next (.ok (s.findRun id)) := by
    rw [Store.findRun_within hids]
    cases s.findRun id with
    | none => rfl
    | some r =>
      rw [Option.filter]
      split
      · rfl
      · next hnot => exact (hforeign r (Bool.eq_false_iff.2 hnot)).symm
  refine .store (fun _ => hnext) (fun _ => rfl) (fun _ => rfl) fun _ => ?_
  show Confined org Fresh post (next (.ok (s.findRun id))) s
  cases s.findRun id with
  | none => exact hmissing
  | some r =>
    cases howns : s.owns org r.monitorId with
    | false => exact (hforeign r howns) ▸ hmissing
    | true => exact hfound r howns

/-- An operation that begins with a monitor of the organization. -/
theorem load {name : String}
    {next : Except StoreError (Option Monitor) → Program α}
    (hmissing : Confined org Fresh post (next (.ok none)) s)
    (hfound : ∀ m ∈ s.monitors, m.org = org → m.name = name →
      Confined org Fresh post (next (.ok (some m))) s) :
    Confined org Fresh post (.call (.store (.findByName org name)) next) s := by
  refine .read rfl (fun _ => rfl)
    (fun _ => (StoreCall.findByName_staysWithin s org name).answer) ?_
  cases hfind : s.findByName org name with
  | none => exact hmissing
  | some m =>
    obtain ⟨horg, hname⟩ := Store.named_of_findByName hfind
    exact hfound m (List.mem_of_find?_eq_some hfind) horg hname

end Confined

/-- The program makes no call of the store and comes to an end. -/
def IsDetached : Program α → Prop
  | done _ => True
  | halt => False
  | call c next => c.isStore = false ∧ ∀ answer, IsDetached (next answer)

theorem IsDetached.bind {f : α → Program β} (hf : ∀ v, (f v).IsDetached) :
    ∀ {p : Program α}, p.IsDetached → (p.bind f).IsDetached
  | .done v, _ => hf v
  | .call _ _, h => ⟨h.1, fun answer => (h.2 answer).bind hf⟩

/-- A program that leaves the store alone is confined to any share. -/
theorem IsDetached.confined {org : String} {Fresh : Uuid → Prop} {s : Store} :
    ∀ {p : Program α}, p.IsDetached → Confined org Fresh (fun _ s' => s' = s) p s
  | .done _, _ => .done rfl
  | .call _ _, h => .ask h.1 fun answer _ => (h.2 answer).confined

end Program

/-! ## The parts of operations -/

namespace Service

open Program

theorem refresh_isDetached (org : String) (run : Run) : (refresh org run).IsDetached := by
  unfold refresh
  split
  · trivial
  · refine ⟨rfl, fun r => ?_⟩
    cases r with
    | error e => trivial
    | ok report => exact ⟨rfl, fun _ => trivial⟩

theorem refreshAll_isDetached (org : String) : ∀ runs : List Run, (refreshAll org runs).IsDetached
  | [] => trivial
  | run :: rest => by
    refine (refresh_isDetached org run).bind fun first => ?_
    refine (refreshAll_isDetached org rest).bind fun others => ?_
    trivial

theorem deleteJobs_isDetached (org : String) : ∀ runs : List Run, (deleteJobs org runs).IsDetached
  | [] => trivial
  | _ :: rest => ⟨rfl, fun _ => deleteJobs_isDetached org rest⟩

section

variable {org : String} {Fresh : Uuid → Prop} {s : Store}

/-- The view of a monitor that the organization owns is confined to its share. -/
theorem view_confined {m : Monitor} (h : s.owns org m.id = true) :
    Confined org Fresh (fun _ s' => s' = s) (view m).run s := by
  rw [view_run]
  refine .read rfl (fun _ => rfl) (fun _ => (StoreCall.latestRun_staysWithin h).answer) ?_
  cases s.latestRun m.id with
  | none => exact .done rfl
  | some run => exact (refresh_isDetached m.org run).confined.bind fun _ _ hs => .done hs

theorem viewAll_confined : ∀ {ms : List Monitor}, (∀ m ∈ ms, s.owns org m.id = true) →
    Confined org Fresh (fun _ s' => s' = s) (viewAll ms).run s
  | [], _ => .done rfl
  | m :: rest, h => by
    rw [viewAll, Operation.run_bind]
    refine (view_confined (h m (.head _))).bind fun first s₁ hs₁ => ?_
    cases first with
    | error e => exact .done hs₁
    | ok first =>
      rw [Operation.onward_ok, Operation.run_bind, hs₁]
      refine (viewAll_confined fun m' hm' => h m' (.tail _ hm')).bind fun others s₂ hs₂ => ?_
      cases others <;> exact .done hs₂

/-- An execution for a monitor that the organization owns is confined to its share. If it fails, the
store is as it was. -/
theorem execution_confined {x : Assignment} (hs : s.IsConsistent)
    (h : s.owns org x.monitor.id = true) (hfresh : ∀ id, Fresh id → s.findRun id = none) :
    Confined org Fresh (fun r s' => (∃ e, r = .error e ∧ s' = s) ∨ ∃ run, r = .ok run)
      x.operation.run s := by
  rw [Assignment.operation_run]
  refine .ask rfl fun id hid => ?_
  split
  · exact .done (.inl ⟨_, rfl, rfl⟩)
  refine .ask rfl fun answer _ => ?_
  cases answer with
  | error e => exact .done (.inl ⟨_, rfl, rfl⟩)
  | ok job =>
    refine .ask rfl fun now _ => .call (fun _ => ?_) fun now' => ?_
    · exact StoreCall.createRun_staysWithin hs.ids h (hfresh id hid)
    · rcases StoreCall.createRun_cases
          (Prod.eta (StoreCall.perform now' s (.createRun (x.record id now)))) with
        ⟨e, heq, hsame, -⟩ | ⟨heq, -⟩
      · rw [heq, hsame]
        exact .ask rfl fun _ _ => .done (.inl ⟨_, rfl, rfl⟩)
      · rw [heq]
        exact .ask rfl fun _ _ => .done (.inr ⟨_, rfl⟩)

end

end Service

/-! ## Every operation -/

namespace Activity

/-- The organization that an operation of the manager is addressed to. -/
def org? : Activity → Option String
  | cycle _ => none
  | create _ org _ | get org _ | list org _ | update org _ _ | delete org _ | stop org _
  | start org _ | runs org _ _ | rerun _ org _ _ | logs org _ _ => some org

end Activity

open Program Service

section

variable {org : String} {Fresh : Uuid → Prop} {s : Store}

/-- A monitor of the organization that is stored is owned by it. -/
theorem Store.owns_of_mem {m : Monitor} (hm : m ∈ s.monitors) (horg : m.org = org) :
    s.owns org m.id = true :=
  Store.owns_iff.2 ⟨m, hm, horg, rfl⟩

/-- An operation that begins with a monitor of the organization. -/
theorem loadMonitor_confined {α : Type} {post : Except MonitorError α → Store → Prop}
    {name : String} {f : Monitor → Operation α} (herror : ∀ e, post (.error e) s)
    (hf : ∀ m ∈ s.monitors, m.org = org → Confined org Fresh post (f m).run s) :
    Confined org Fresh post (loadMonitor org name >>= f).run s := by
  rw [loadMonitor_bind]
  exact .load (.done (herror _)) fun m hm horg _ => hf m hm horg

/-- An operation that goes on with a run of a monitor of the organization. -/
theorem loadRun_confined {α : Type} {post : Except MonitorError α → Store → Prop} {m : Monitor}
    {id : Uuid} {f : Run → Operation α} (hs : s.IsProper) (hm : m ∈ s.monitors) (horg : m.org = org)
    (herror : ∀ e, post (.error e) s)
    (hf : ∀ r, r.monitorId = m.id → Confined org Fresh post (f r).run s) :
    Confined org Fresh post (loadRun m id >>= f).run s := by
  rw [loadRun_bind]
  refine .findRun hs.runIds (fun r howns => ?_) (.done (herror _)) fun r howns => ?_
  · refine if_neg fun hid => ?_
    rw [hid, Store.owns_of_mem hm horg] at howns
    cases howns
  · dsimp only
    split
    · next hid => exact hf r hid
    · exact .done (herror _)

theorem get_confined (name : String) : Confined org Fresh (fun _ _ => True) (get org name).run s :=
  loadMonitor_confined (fun _ => trivial) fun _ hm horg =>
    (view_confined (Store.owns_of_mem hm horg)).mono fun _ _ _ => trivial

theorem list_confined (filter : MonitorFilter) :
    Confined org Fresh (fun _ _ => True) (list org filter).run s := by
  refine .read rfl (fun _ => rfl)
    (fun _ => (StoreCall.listMonitors_staysWithin s org filter).answer) ?_
  refine (viewAll_confined fun m hm => ?_).mono fun _ _ _ => trivial
  rw [Store.listMonitors, List.mem_mergeSort, List.mem_filter, Bool.and_eq_true] at hm
  exact Store.owns_of_mem hm.1 (of_decide_eq_true hm.2.1)

theorem update_confined (hs : s.IsConsistent) (name : String) (edit : Edit) :
    Confined org Fresh (fun _ _ => True) (update org name edit).run s := by
  rw [update_run]
  refine .load (.done trivial) fun m hm horg _ => ?_
  dsimp only
  split
  · exact .done trivial
  · refine .ask rfl fun now _ => ?_
    have hid : ({ edit.apply m with updatedAt := now } : Monitor).id = m.id := rfl
    generalize ({ edit.apply m with updatedAt := now } : Monitor) = edited at hid
    refine .call (fun _ => ?_) fun now' => ?_
    · exact StoreCall.updateDefinition_staysWithin hs.ids (hid ▸ Store.owns_of_mem hm horg)
    · rw [StoreCall.updateDefinition_answer hm hid]
      exact get_confined name

theorem delete_confined (hs : s.IsConsistent) (name : String) :
    Confined org Fresh (fun _ _ => True) (delete org name).run s := by
  rw [delete_run]
  refine .load (.done trivial) fun m hm horg _ => ?_
  have howns := Store.owns_of_mem hm horg
  refine .read rfl (fun _ => rfl) (fun _ => (StoreCall.listRuns_staysWithin howns none).answer) ?_
  refine .call (fun _ => StoreCall.deleteMonitor_staysWithin hs.ids howns) fun now => ?_
  exact (deleteJobs_isDetached org _).confined.bind fun _ _ _ => .done trivial

/-- The conditional call of a stop or a start is confined, and the monitor stays the
organization's. -/
theorem write_confined {α : Type} {post : α → Store → Prop}
    {next : Except StoreError Bool → Program α} (hs : s.IsConsistent) (sw : Switch) {m : Monitor}
    (howns : s.owns org m.id = true) (now : Timestamp)
    (hnext : ∀ s' changed, s'.owns org m.id = true →
      Confined org Fresh post (next (.ok changed)) s') :
    Confined org Fresh post ((sw.write m now).bind next) s := by
  cases sw with
  | off =>
    refine .call (fun _ => StoreCall.suspend_staysWithin hs.ids howns) fun now' => ?_
    exact hnext (s.suspend m.id now').1 _ (Store.owns_reschedule.trans howns)
  | on =>
    refine .call (fun _ => StoreCall.resume_staysWithin hs.ids howns _) fun now' => ?_
    exact hnext (s.resume m.id _ now').1 _ (Store.owns_reschedule.trans howns)

/-- A stop or a start is confined to the share of the organization. -/
theorem switch_confined (hs : s.IsConsistent) (sw : Switch) (name : String) :
    Confined org Fresh (fun _ _ => True) (sw.operation org name).run s := by
  rw [Switch.operation_run]
  refine .load (.done trivial) fun m hm horg _ => .ask rfl fun now _ => ?_
  split
  · exact .done trivial
  · next turned hturn =>
    have howns : s.owns org turned.id = true := Switch.turn_id hturn ▸ Store.owns_of_mem hm horg
    refine write_confined hs sw howns now fun s' changed howns' => ?_
    cases changed with
    | true => exact (view_confined howns').mono fun _ _ _ => trivial
    | false =>
      rw [← Operation.run_bind]
      exact loadMonitor_confined (fun _ => trivial) fun _ _ _ => .done trivial

theorem runs_confined (name : String) (limit : Option Nat) :
    Confined org Fresh (fun _ _ => True) (runs org name limit).run s := by
  refine loadMonitor_confined (fun _ => trivial) fun m hm horg => ?_
  have howns := Store.owns_of_mem hm horg
  refine .read rfl (fun _ => rfl) (fun _ => (StoreCall.listRuns_staysWithin howns limit).answer) ?_
  exact (refreshAll_isDetached org _).confined.bind fun _ _ _ => .done trivial

theorem logs_confined (hs : s.IsProper) (name : String) (id : Uuid) :
    Confined org Fresh (fun _ _ => True) (logs org name id).run s :=
  loadMonitor_confined (fun _ => trivial) fun _ hm horg =>
    loadRun_confined hs hm horg (fun _ => trivial) fun _ _ =>
      .ask rfl fun _ _ => .done trivial

theorem rerun_confined (hs : s.IsProper) (hfresh : ∀ id, Fresh id → s.findRun id = none)
    (template name : String) (id : Uuid) :
    Confined org Fresh (fun _ _ => True) (rerun template org name id).run s := by
  refine loadMonitor_confined (fun _ => trivial) fun m hm horg => ?_
  refine loadRun_confined hs hm horg (fun _ => trivial) fun r _ => ?_
  have hexecution := execution_confined (x := ⟨template, org, m, r.window, r.evaluators⟩)
    hs.toIsConsistent (Store.owns_of_mem hm horg) hfresh
  exact hexecution.mono fun _ _ _ => trivial

/-- What a creation does once its monitor is in the store is confined. -/
theorem launch_confined {m : Monitor} (hs : s.IsConsistent) (howns : s.owns org m.id = true)
    (hfresh : ∀ id, Fresh id → s.findRun id = none) (template : String) :
    Confined org Fresh (fun _ _ => True) (launch template org m) s := by
  unfold launch
  split
  · refine (execution_confined hs howns hfresh).bind fun result s' hresult => ?_
    rcases hresult with ⟨e, rfl, rfl⟩ | ⟨r, rfl⟩
    · exact .call (fun _ => StoreCall.deleteMonitor_staysWithin hs.ids howns) fun _ => .done trivial
    · exact .done trivial
  · exact .done trivial

theorem create_confined (hs : s.IsConsistent) (hfresh : ∀ id, Fresh id → s.Lacks id)
    (template : String) (request : NewMonitor) :
    Confined org Fresh (fun _ _ => True) (create template org request).run s := by
  rw [create_run]
  refine .ask rfl fun now _ => ?_
  dsimp only
  split
  · exact .done trivial
  refine .load ?_ fun _ _ _ _ => .done trivial
  refine .ask rfl fun agentId _ => ?_
  cases agentId with
  | error e => exact .done trivial
  | ok agentId =>
  refine .ask rfl fun environmentId _ => ?_
  cases environmentId with
  | error e => exact .done trivial
  | ok environmentId =>
  refine .ask rfl fun id hid => ?_
  have hm : (request.truncate.toMonitor id org agentId environmentId now).id = id ∧
    (request.truncate.toMonitor id org agentId environmentId now).org = org := ⟨rfl, rfl⟩
  generalize request.truncate.toMonitor id org agentId environmentId now = m at hm
  obtain ⟨rfl, horg⟩ := hm
  refine .call (fun _ => ?_) fun now' => ?_
  · exact StoreCall.createMonitor_staysWithin hs horg (hfresh _ hid).monitor
  have hs' : ((StoreCall.createMonitor m).perform now' s).2.IsConsistent :=
    StoreCall.isConsistent_perform hs
  have hruns : ∀ id, Fresh id →
      ((StoreCall.createMonitor m).perform now' s).2.findRun id = none := by
    intro id hid
    rw [Store.findRun, StoreCall.runs_perform rfl]
    exact (hfresh id hid).run
  rcases StoreCall.createMonitor_cases now' s m with ⟨what, heq⟩ | ⟨-, heq⟩
  · rw [heq]
    exact .done trivial
  · rw [heq] at hs' hruns ⊢
    have howns : (s.putMonitor m).owns org m.id = true :=
      Store.owns_of_mem (StoreCall.mem_putMonitor m) horg
    exact launch_confined hs' howns hruns template

end

/-- Every operation of the manager is confined to the share of the organization that it is addressed
to. -/
theorem Activity.confined {a : Activity} {org : String} (ha : a.org? = some org) {s : Store}
    (hs : s.IsProper) :
    Confined org s.Lacks (fun _ _ => True) a.operation.run s := by
  have hruns : ∀ id, s.Lacks id → s.findRun id = none := fun _ h => h.run
  cases a with
  | cycle => cases ha
  | create template org' request =>
    cases ha
    exact create_confined hs.toIsConsistent (fun _ h => h) template request
  | get org' name => cases ha; exact get_confined name
  | list org' filter => cases ha; exact list_confined filter
  | update org' name edit => cases ha; exact update_confined hs.toIsConsistent name edit
  | delete org' name => cases ha; exact delete_confined hs.toIsConsistent name
  | stop org' name => cases ha; exact switch_confined hs.toIsConsistent .off name
  | start org' name => cases ha; exact switch_confined hs.toIsConsistent .on name
  | runs org' name limit => cases ha; exact runs_confined name limit
  | rerun template org' name id => cases ha; exact rerun_confined hs hruns template name id
  | logs org' name id => cases ha; exact logs_confined hs name id

end TraceWatch
