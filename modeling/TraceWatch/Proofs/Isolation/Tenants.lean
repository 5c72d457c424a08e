import TraceWatch.Proofs.Isolation.Confined
import TraceWatch.Proofs.System.Replay

/-!
# Tenants

Organizations share one store and know nothing of each other: `tenants_isolated`. An operation of
the manager is carried out twice in the same surroundings, on two stores that agree on what belongs
to its organization; it comes out the same, says the same to the outside, and leaves what belongs to
others as it was. The surroundings may answer anything, as long as it does not depend on the store:
`Outside` answers a call by what it has been asked before.
-/

namespace TraceWatch

/-! ## Surroundings that do not see the store -/

/-- The identifier that an exchange draws, if it draws one. -/
def Exchange.drawn? : Exchange → Option Uuid
  | ⟨.freshId, id⟩ => some id
  | _ => none

/-- What surrounds a store, in one of the states `W`. -/
structure Outside (W : Type) where
  /-- The instant at which a call of the store is carried out, and the state after it. -/
  instant : W → Timestamp × W
  /-- The answer of any other call, and the state after it. -/
  answer : (c : Call) → W → c.Answer × W

/-- A store, the state of its surroundings, and what they have been asked, the latest last. -/
structure Setting (W : Type) where
  outer : W
  store : Store
  log : List Exchange

namespace Setting

variable {W : Type}

/-- The identifiers that have been drawn. -/
def drawn (x : Setting W) : List Uuid := x.log.filterMap Exchange.drawn?

end Setting

namespace Outside

variable {W : Type}

/-- Answers a call. -/
def perform (o : Outside W) : (c : Call) → Setting W → c.Answer × Setting W
  | .store c, x =>
    let (now, outer) := o.instant x.outer
    let (answer, store) := c.perform now x.store
    (answer, { x with outer, store })
  | c, x =>
    let (answer, outer) := o.answer c x.outer
    (answer, { x with outer, log := x.log ++ [⟨c, answer⟩] })

/-- Carries an operation out on a store. -/
def carryOut (o : Outside W) (a : Activity) (w : W) (s : Store) :
    Option (Except MonitorError a.Result) × Setting W :=
  a.operation.run.run o.perform ⟨w, s, []⟩

variable {o : Outside W}

theorem perform_ask {c : Call} (hc : c.isStore = false) (x : Setting W) :
    o.perform c x = ((o.answer c x.outer).1,
      ⟨(o.answer c x.outer).2, x.store, x.log ++ [⟨c, (o.answer c x.outer).1⟩]⟩) := by
  cases c with
  | store => cases hc
  | _ => rfl

theorem run_read {α : Type} {c : StoreCall} {next : (Call.store c).Answer → Program α} {s : Store}
    (hread : c.isRead = true) {answer : Except StoreError c.Answer}
    (hanswer : ∀ now, (c.perform now s).1 = answer) (w : W) (log : List Exchange) :
    (Program.call (.store c) next).run o.perform ⟨w, s, log⟩ =
      (next answer).run o.perform ⟨(o.instant w).2, s, log⟩ := by
  show (next (c.perform (o.instant w).1 s).1).run o.perform
    ⟨(o.instant w).2, (c.perform (o.instant w).1 s).2, log⟩ = _
  rw [StoreCall.perform_of_isRead hread, hanswer]

/-- What has been asked is not forgotten. -/
theorem log_subset {α : Type} : ∀ (p : Program α) (x : Setting W),
    x.log ⊆ (p.run o.perform x).2.log
  | .done _, x | .halt, x => List.Subset.refl x.log
  | .call c next, x => by
    refine List.Subset.trans ?_ (log_subset (next (o.perform c x).1) (o.perform c x).2)
    cases hc : c.isStore with
    | true =>
      cases c with
      | store c => exact List.Subset.refl _
      | _ => cases hc
    | false =>
      rw [perform_ask hc]
      exact List.subset_append_left _ _

end Outside

open Program in
/-- A confined program does with the share alone what it does with the whole store. -/
theorem Program.Confined.run_within {W : Type} {o : Outside W} {α : Type} {org : String}
    {Fresh : Uuid → Prop} {post : α → Store → Prop} {p : Program α} {s : Store}
    (h : Confined org Fresh post p s) :
    ∀ {w : W} {log : List Exchange},
      (∀ id ∈ (p.run o.perform ⟨w, s, log⟩).2.drawn, Fresh id) →
      ∃ v w' s' log', p.run o.perform ⟨w, s, log⟩ = (some v, ⟨w', s', log'⟩) ∧
        p.run o.perform ⟨w, s.within org, log⟩ = (some v, ⟨w', s'.within org, log'⟩) ∧
        s'.beyond org = s.beyond org := by
  induction h with
  | @done v s hv => exact fun _ => ⟨v, _, s, _, rfl, rfl, rfl⟩
  | @store c next s hnext hshare hrest _ ih =>
    intro w log hdrawn
    obtain ⟨v, w', s', log', hrun, hrun', hbeyond⟩ := ih (o.instant w).1 hdrawn
    refine ⟨v, w', s', log', hrun, ?_, hbeyond.trans (hrest _)⟩
    rw [hshare] at hrun'
    rw [← hrun', ← hnext]
    rfl
  | @ask c next s hc _ ih =>
    intro w log hdrawn
    have hrun (s : Store) : (Program.call c next).run o.perform ⟨w, s, log⟩ =
        (next (o.answer c w).1).run o.perform
          ⟨(o.answer c w).2, s, log ++ [⟨c, (o.answer c w).1⟩]⟩ := by
      rw [Program.run, Outside.perform_ask hc]
    rw [hrun] at hdrawn
    have hallows : c.Allows Fresh (o.answer c w).1 := by
      cases c with
      | freshId =>
        refine hdrawn _ (List.mem_filterMap.2 ⟨⟨.freshId, (o.answer .freshId w).1⟩, ?_, rfl⟩)
        exact Outside.log_subset _ _ (List.mem_append_right _ (.head _))
      | _ => trivial
    obtain ⟨v, w', s', log', hfirst, hsecond, hbeyond⟩ := ih _ hallows hdrawn
    exact ⟨v, w', s', log', (hrun _).trans hfirst, (hrun _).trans hsecond, hbeyond⟩

/-! ## Runs of others -/

/-- The monitor and the run that a request for a run or its log names. -/
def Activity.namedRun? : Activity → Option (String × Uuid)
  | .rerun _ _ name id | .logs _ name id => some (name, id)
  | _ => none

/-- The store without a run. -/
def Store.without (s : Store) (id : Uuid) : Store := { s with runs := s.runs.filter (·.id ≠ id) }

theorem Store.findRun_without (s : Store) (id : Uuid) : (s.without id).findRun id = none := by
  refine List.find?_eq_none.2 fun r hr => ?_
  simpa using (List.mem_filter.1 hr).2

section

variable {W : Type} {o : Outside W} {w : W} {s : Store} {org name : String} {id : Uuid}
  {m : Monitor}

/-- An operation that needs a run of a monitor which is none of its runs fails. -/
theorem run_missing {α : Type} {f : Monitor → Run → Operation α} {log : List Exchange}
    (hm : s.findByName org name = some m)
    (hr : ∀ r, s.findRun id = some r → r.monitorId ≠ m.id) :
    (Service.loadMonitor org name >>= fun m => Service.loadRun m id >>= f m).run.run o.perform
        ⟨w, s, log⟩ =
      (some (.error (.runNotFound id m.name)), ⟨(o.instant (o.instant w).2).2, s, log⟩) := by
  have hfound (now : Timestamp) :
      (StoreCall.perform now s (.findByName org name)).1 = .ok (some m) := congrArg Except.ok hm
  rw [Service.loadMonitor_bind, Outside.run_read rfl hfound]
  dsimp only
  rw [Service.loadRun_bind]
  cases hfind : s.findRun id with
  | none =>
    have hnone (now : Timestamp) : (StoreCall.perform now s (.findRun id)).1 = .ok none :=
      congrArg Except.ok hfind
    rw [Outside.run_read rfl hnone]
    rfl
  | some r =>
    have hsome (now : Timestamp) : (StoreCall.perform now s (.findRun id)).1 = .ok (some r) :=
      congrArg Except.ok hfind
    rw [Outside.run_read rfl hsome]
    dsimp only
    rw [if_neg (hr r hfind)]
    rfl

/-- A request about a run comes out in one way if the run is that of another monitor and if it does
not exist: nothing is found, and nothing is said to the outside. -/
theorem carryOut_namedRun {a : Activity} (ha : a.org? = some org)
    (hrun : a.namedRun? = some (name, id)) (hm : s.findByName org name = some m)
    (hr : ∀ r, s.findRun id = some r → r.monitorId ≠ m.id) :
    o.carryOut a w s =
      (some (.error (.runNotFound id name)), ⟨(o.instant (o.instant w).2).2, s, []⟩) := by
  obtain ⟨-, rfl⟩ := Store.named_of_findByName hm
  cases a with
  | rerun template org' name' id' =>
    cases ha
    cases hrun
    exact run_missing hm hr
  | logs org' name' id' =>
    cases ha
    cases hrun
    exact run_missing hm hr
  | _ => cases hrun

end

/-! ## The statement -/

/-- What an operation for an organization does with a store, and what it would do with another store
that holds the same for the organization. -/
structure Isolates {W : Type} (o : Outside W) (a : Activity) (org : String) (w : W) (s s' : Store) :
    Prop where
  /-- It returns, and returns the same. -/
  result : ∃ r, (o.carryOut a w s).1 = some r ∧ (o.carryOut a w s').1 = some r
  /-- It says the same to the outside, in the same order. -/
  log : (o.carryOut a w s).2.log = (o.carryOut a w s').2.log
  /-- It leaves the same for the organization. -/
  share : (o.carryOut a w s).2.store.within org = (o.carryOut a w s').2.store.within org
  /-- It leaves what belongs to others as it was. -/
  others : (o.carryOut a w s).2.store.beyond org = s.beyond org ∧
    (o.carryOut a w s').2.store.beyond org = s'.beyond org
  /-- A run of another monitor, whoever it belongs to, might as well not exist. -/
  foreign : ∀ name id m r, a.namedRun? = some (name, id) → s.findByName org name = some m →
    s.findRun id = some r → r.monitorId ≠ m.id →
      (o.carryOut a w s).1 = some (.error (.runNotFound id name)) ∧
        (o.carryOut a w (s.without id)).1 = (o.carryOut a w s).1 ∧
        (o.carryOut a w s).2.log = [] ∧ (o.carryOut a w (s.without id)).2.log = [] ∧
        (o.carryOut a w s).2.store = s

/-- Organizations are isolated: in the same surroundings, an operation of the manager on one of two
stores that agree on what belongs to its organization does what it does on the other, provided the
identifiers that are drawn are not in use. -/
theorem tenants_isolated {W : Type} (o : Outside W) {a : Activity} {org : String} {w : W}
    {s s' : Store} (ha : a.org? = some org) (hs : s.IsProper) (hs' : s'.IsProper)
    (hagree : s.within org = s'.within org) (hdrawn : ∀ id ∈ (o.carryOut a w s).2.drawn, s.Lacks id)
    (hdrawn' : ∀ id ∈ (o.carryOut a w s').2.drawn, s'.Lacks id) : Isolates o a org w s s' := by
  obtain ⟨v, x, s₁, log, hrun, hshare, hrest⟩ := (Activity.confined ha hs).run_within hdrawn
  obtain ⟨v', x', s₁', log', hrun', hshare', hrest'⟩ :=
    (Activity.confined ha hs').run_within hdrawn'
  -- the run on the share that the two stores have in common is the same
  rw [hagree, hshare'] at hshare
  obtain ⟨hv, hx⟩ := Prod.mk.inj hshare
  obtain ⟨rfl, hwithin, rfl⟩ := Setting.mk.inj hx
  have hfirst : o.carryOut a w s = (some v, ⟨x', s₁, log'⟩) := hrun
  have hsecond : o.carryOut a w s' = (some v', ⟨x', s₁', log'⟩) := hrun'
  refine ⟨⟨v, by rw [hfirst], by rw [hsecond, hv]⟩, by rw [hfirst, hsecond], ?_, ⟨?_, ?_⟩, ?_⟩
  · rw [hfirst, hsecond]
    exact hwithin.symm
  · rw [hfirst]
    exact hrest
  · rw [hsecond]
    exact hrest'
  · intro name id m r hnamed hm hr hne
    have hwith := carryOut_namedRun (o := o) (w := w) ha hnamed hm fun r' hr' => by
      rwa [← Option.some.inj (hr.symm.trans hr')]
    have hwithout : o.carryOut a w (s.without id) = _ :=
      carryOut_namedRun ha hnamed hm fun r' hr' => by
        rw [Store.findRun_without] at hr'
        cases hr'
    rw [hwith, hwithout]
    exact ⟨rfl, rfl, rfl, rfl, rfl⟩

/-- Surroundings whose clock stands still; the state counts the identifiers drawn. -/
def Surroundings.outside (env : Surroundings) (clock : Timestamp) : Outside Nat where
  instant n := (clock, n)
  answer
    | .now, n => (clock, n)
    | .freshId, n => (env.id n, n + 1)
    | .cancelled, n => (env.cancelled, n)
    | .count _, n => ((), n)
    | .acquireLock, n => (.ok true, n)
    | .releaseLock, n => (.ok (), n)
    | .store _, n => (.error (.database "not here"), n)
    | .plane c, n => (env.plane c, n)

/-- A monitor of an organization with a run, both known by the same number. -/
def Store.single (org : String) (n : Nat) : Store where
  monitors := [{ Monitor.hourly n "tone" ⟨3600, 0⟩ with org }]
  runs := [.pending ⟨BitVec.ofNat 128 n⟩ ⟨BitVec.ofNat 128 n⟩ "tone" ⟨⟨0, 0⟩, ⟨3600, 0⟩⟩
    [.plain "tone" "Tone"] ⟨3600, 0⟩]

/-- What two stores hold between them. -/
def Store.beside (s s' : Store) : Store := ⟨s.monitors ++ s'.monitors, s.runs ++ s'.runs⟩

/-- One organization, alone and beside another: a rerun of its own run, and one of the other's. -/
theorem tenants_isolated_neighbour :
    let o := Surroundings.accepting.outside ⟨3700, 0⟩
    let alone := Store.single "acme" 1
    let beside := (Store.single "globex" 2).beside alone
    let own := Activity.rerun "evaluation" "acme" "tone" ⟨1⟩
    let others := Activity.rerun "evaluation" "acme" "tone" ⟨2⟩
    Isolates o own "acme" 7 beside alone ∧ Isolates o others "acme" 7 beside alone ∧
      (o.carryOut own 7 beside).1.any Except.isOk = true ∧
      (o.carryOut own 7 beside).2.drawn.length = 1 ∧
      (o.carryOut others 7 beside).1 = some (.error (.runNotFound ⟨2⟩ "tone")) := by
  intro o alone beside own others
  have halone : alone.IsProper :=
    ⟨⟨by decide +kernel, by decide +kernel, by decide +kernel⟩, by decide +kernel⟩
  have hbeside : beside.IsProper :=
    ⟨⟨by decide +kernel, by decide +kernel, by decide +kernel⟩, by decide +kernel⟩
  have hagree : beside.within "acme" = alone.within "acme" := rfl
  have hown : Isolates o own "acme" 7 beside alone :=
    tenants_isolated o rfl hbeside halone hagree (by decide +kernel) (by decide +kernel)
  have hothers : Isolates o others "acme" 7 beside alone :=
    tenants_isolated o rfl hbeside halone hagree (by decide +kernel) (by decide +kernel)
  have hsome : (o.carryOut own 7 beside).1.any Except.isOk = true := by decide +kernel
  have hm : beside.findByName "acme" "tone" = some (Monitor.hourly 1 "tone" ⟨3600, 0⟩) := rfl
  have hmissing := hothers.foreign "tone" ⟨2⟩ _ _ rfl hm rfl (by decide +kernel)
  exact ⟨hown, hothers, hsome, by decide +kernel, hmissing.1⟩

end TraceWatch
