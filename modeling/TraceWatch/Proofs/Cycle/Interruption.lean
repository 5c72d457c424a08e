import TraceWatch.Proofs.Cycle.Units
import TraceWatch.Proofs.Isolation.Tenants

/-!
# Cycles that are told to stop

A cycle that is told to stop finishes the unit of work that it is at and begins no other. To say so,
it is carried out again and again in the same surroundings and on the same store, each time told to
stop at another moment; and beside it, as the measure, the cycle that does its first units and never
looks whether to stop (`Service.shortCycle`). Whatever the moment, the two do the same
(`Outside.interrupted_cycle`). The surroundings may answer anything, as long as they do not know
that the cycle has been told.
-/

namespace TraceWatch

open Program

/-! ## Surroundings in which a cycle is told to stop -/

/-- How far a cycle has come: what surrounds it, the store, whether the scheduler lock is held, and
what has been asked and answered, the latest last. To ask whether to stop does not count. -/
structure Progress (W : Type) where
  outer : W
  store : Store
  held : Bool
  log : List Exchange

/-- The cycle has been told to stop: when so many calls had been answered. To be told while a call
is being answered is to be told when it has been. -/
def Progress.isTold {W : Type} (moment : Option Nat) (x : Progress W) : Bool :=
  moment.any (· ≤ x.log.length)

namespace Outside

variable {W : Type}

/-- Answers a call of a cycle that is told to stop at the moment, or never. The scheduler lock is
the cycle's for the asking. -/
def performUntil (o : Outside W) (moment : Option Nat) :
    (c : Call) → Progress W → c.Answer × Progress W
  | .cancelled, x => (x.isTold moment, x)
  | .acquireLock, x =>
    (.ok !x.held, { x with held := true, log := x.log ++ [⟨.acquireLock, .ok !x.held⟩] })
  | .releaseLock, x =>
    (.ok (), { x with held := false, log := x.log ++ [⟨.releaseLock, .ok ()⟩] })
  | .store c, x =>
    let (now, outer) := o.instant x.outer
    let (answer, store) := c.perform now x.store
    (answer, { x with outer, store, log := x.log ++ [⟨.store c, answer⟩] })
  | c, x =>
    let (answer, outer) := o.answer c x.outer
    (answer, { x with outer, log := x.log ++ [⟨c, answer⟩] })

/-- What a program comes to that is told to stop at the moment, and how far it gets. -/
def does {α : Type} (o : Outside W) (moment : Option Nat) (p : Program α) (x : Progress W) :
    Option α × Progress W :=
  p.run (o.performUntil moment) x

section

variable {o : Outside W} {moment : Option Nat} {α β : Type} {x : Progress W}

theorem does_call (c : Call) (next : c.Answer → Program α) (x : Progress W) :
    o.does moment (.call c next) x =
      o.does moment (next (o.performUntil moment c x).1) (o.performUntil moment c x).2 :=
  rfl

theorem does_cancelled (next : Bool → Program α) (x : Progress W) :
    o.does moment (.call .cancelled next) x = o.does moment (next (x.isTold moment)) x :=
  rfl

theorem does_bind_of_some {p : Program α} {v : α} {y : Progress W} (f : α → Program β)
    (h : o.does moment p x = (some v, y)) : o.does moment (p.bind f) x = o.does moment (f v) y := by
  unfold does at h ⊢
  rw [run_bind, h]

theorem does_bind_of_none {p : Program α} {y : Progress W} (f : α → Program β)
    (h : o.does moment p x = (none, y)) : o.does moment (p.bind f) x = (none, y) := by
  unfold does at h ⊢
  rw [run_bind, h]

theorem does_map (p : Program α) (f : α → β) (x : Progress W) :
    o.does moment (p.bind fun v => .done (f v)) x =
      ((o.does moment p x).1.map f, (o.does moment p x).2) := by
  cases h : o.does moment p x with
  | mk out y =>
    cases out with
    | none => exact does_bind_of_none _ h
    | some v => exact does_bind_of_some _ h

theorem performUntil_of_isWork {c : Call} (hc : c.IsWork) (x : Progress W) :
    o.performUntil moment c x = o.performUntil none c x := by
  cases c with
  | cancelled => exact absurd rfl hc
  | _ => rfl

/-- A program that does not look whether to stop does the same whenever it is told. -/
theorem does_of_keeps {Q : α → Prop} : ∀ {p : Program α} {x : Progress W},
    p.Keeps Call.IsWork Q → o.does moment p x = o.does none p x
  | .done _, _, _ | .halt, _, _ => rfl
  | .call c next, x, h => by
    rw [does_call, does_call, performUntil_of_isWork h.1]
    exact does_of_keeps (h.2 _)

/-- Two programs that do the same up to a point, the one told to stop and the other not, do the same
if from there on nobody looks whether to stop. -/
theorem does_bind_congr {p q : Program α} {f : α → Program β} {Q : β → Prop}
    (h : o.does moment p x = o.does none q x) (hf : ∀ v, (f v).Keeps Call.IsWork Q) :
    o.does moment (p.bind f) x = o.does none (q.bind f) x := by
  cases hq : o.does none q x with
  | mk out y =>
    cases out with
    | none => rw [does_bind_of_none f (h.trans hq), does_bind_of_none f hq]
    | some v =>
      rw [does_bind_of_some f (h.trans hq), does_bind_of_some f hq]
      exact does_of_keeps (hf v)

/-- The answer to a call is put down, unless it is whether to stop. -/
theorem log_performUntil (o : Outside W) (moment : Option Nat) (c : Call) (x : Progress W) :
    (o.performUntil moment c x).2.log = x.log ∨
      (o.performUntil moment c x).2.log = x.log ++ [⟨c, (o.performUntil moment c x).1⟩] := by
  cases c with
  | cancelled => exact .inl rfl
  | _ => exact .inr rfl

/-- What has been answered stays answered. -/
theorem isPrefix_log : ∀ (p : Program α) (x : Progress W), x.log <+: (o.does moment p x).2.log
  | .done _, x | .halt, x => List.prefix_rfl
  | .call c next, x => by
    rw [does_call]
    refine List.IsPrefix.trans ?_ (isPrefix_log (next _) _)
    obtain h | h := log_performUntil o moment c x
    · exact h ▸ List.prefix_rfl
    · exact h ▸ List.prefix_append _ _

/-- What a sequence is answered begins with what its first part is answered. -/
theorem isPrefix_log_bind (p : Program α) (f : α → Program β) (x : Progress W) :
    (o.does moment p x).2.log <+: (o.does moment (p.bind f) x).2.log := by
  cases h : o.does moment p x with
  | mk out y =>
    cases out with
    | none => exact does_bind_of_none f h ▸ List.prefix_rfl
    | some v =>
      rw [does_bind_of_some f h]
      exact isPrefix_log (f v) y

/-- A program that makes calls of one sort adds such calls to the log. -/
theorem log_of_keeps {P : Call → Prop} {Q : α → Prop} : ∀ {p : Program α} {x : Progress W},
    p.Keeps P Q → (∀ e ∈ x.log, P e.1) → ∀ e ∈ (o.does moment p x).2.log, P e.1
  | .done _, _, _, h | .halt, _, _, h => h
  | .call c next, x, hp, h => by
    rw [does_call]
    refine log_of_keeps (hp.2 _) ?_
    obtain hlog | hlog := log_performUntil o moment c x
    · rwa [hlog]
    · rw [hlog]
      refine List.forall_mem_append.2 ⟨h, List.forall_mem_singleton.2 hp.1⟩

end

end Outside

/-! ## Where the loops stop -/

/-- Of `n` steps, the first of which come to such and such, the first `k` are done by somebody who
looks before each step whether to stop. -/
structure StopsAfter {W α : Type} (moment : Option Nat) (first : Nat → Option α × Progress W)
    (n k : Nat) : Prop where
  before : ∀ j < k, (first j).2.isTold moment = false
  last : k < n → (first k).2.isTold moment = true

namespace StopsAfter

variable {W α : Type} {moment : Option Nat} {first : Nat → Option α × Progress W}

/-- Whoever has not been told goes on with the steps after the first. -/
theorem succ {n k : Nat} (h : StopsAfter moment (fun j => first (j + 1)) n k)
    (hnow : (first 0).2.isTold moment = false) : StopsAfter moment first (n + 1) (k + 1) where
  before := by
    rintro (_ | j) hj
    · exact hnow
    · exact h.before j (Nat.lt_of_succ_lt_succ hj)
  last := fun hk => h.last (Nat.lt_of_succ_lt_succ hk)

/-- Of steps that come to nothing more, none are done by somebody who has been told, and otherwise
all. -/
theorem exists_of_const (moment : Option Nat) (out : Option α × Progress W) (n : Nat) :
    ∃ k ≤ n, StopsAfter moment (fun _ => out) n k := by
  cases h : out.2.isTold moment with
  | true => exact ⟨0, Nat.zero_le n, nofun, fun _ => h⟩
  | false => exact ⟨n, Nat.le_refl n, fun _ _ => h, fun hn => absurd hn (Nat.lt_irrefl n)⟩

end StopsAfter

namespace WorkUnit

variable {W : Type} {template : String} {now : Timestamp}

/-- What the first of the units come to. -/
def first (o : Outside W) (template : String) (now : Timestamp) (us : List WorkUnit) (tally : Tally)
    (x : Progress W) (k : Nat) : Option Tally × Progress W :=
  o.does none (carryOut template now (us.take k) tally) x

section

variable {o : Outside W} {u : WorkUnit} {x y : Progress W}

theorem first_succ_of_some {counted : Tally}
    (h : o.does none (u.program template now) x = (some counted, y)) (us : List WorkUnit)
    (tally : Tally) (k : Nat) : first o template now (u :: us) tally x (k + 1) =
      first o template now us (tally + counted) y k :=
  Outside.does_bind_of_some _ h

theorem first_succ_of_none (h : o.does none (u.program template now) x = (none, y))
    (us : List WorkUnit) (tally : Tally) (k : Nat) :
    first o template now (u :: us) tally x (k + 1) = (none, y) :=
  Outside.does_bind_of_none _ h

end

/-- Units that are carried out until one is told to stop are the first of them. -/
theorem carryOutUntilTold_does (o : Outside W) (moment : Option Nat) (template : String)
    (now : Timestamp) :
    ∀ (us : List WorkUnit) (tally : Tally) (x : Progress W),
      ∃ k ≤ us.length, StopsAfter moment (first o template now us tally x) us.length k ∧
        o.does moment (carryOutUntilTold template now us tally) x =
          ((first o template now us tally x k).1.map (·, decide (k = us.length)),
            (first o template now us tally x k).2)
  | [], _, _ => ⟨0, Nat.le_refl _, ⟨nofun, nofun⟩, rfl⟩
  | u :: us, tally, x => by
    rw [carryOutUntilTold, Outside.does_cancelled]
    cases htold : x.isTold moment with
    | true => exact ⟨0, Nat.zero_le _, ⟨nofun, fun _ => htold⟩, rfl⟩
    | false =>
      dsimp only
      have hnow : (first o template now (u :: us) tally x 0).2.isTold moment = false := htold
      cases hu : o.does none (u.program template now) x with
      | mk counted y =>
        have hu' : o.does moment (u.program template now) x = (counted, y) :=
          (Outside.does_of_keeps u.program_keeps).trans hu
        cases counted with
        | none =>
          have hmore := first_succ_of_none hu us tally
          obtain ⟨k, hk, hstops⟩ :=
            StopsAfter.exists_of_const (α := Tally) moment (none, y) us.length
          rw [← funext hmore] at hstops
          refine ⟨k + 1, Nat.succ_le_succ hk, hstops.succ hnow, ?_⟩
          rw [Outside.does_bind_of_none _ hu', hmore]
          rfl
        | some counted =>
          have hmore := first_succ_of_some hu us tally
          obtain ⟨k, hk, hstops, hdoes⟩ :=
            carryOutUntilTold_does o moment template now us (tally + counted) y
          rw [← funext hmore] at hstops
          refine ⟨k + 1, Nat.succ_le_succ hk, hstops.succ hnow, ?_⟩
          rw [Outside.does_bind_of_some _ hu', hmore, hdoes]
          simp

theorem first_length (o : Outside W) (template : String) (now : Timestamp) (us : List WorkUnit)
    (tally : Tally) (x : Progress W) :
    first o template now us tally x us.length = o.does none (carryOut template now us tally) x := by
  rw [first, List.take_length]

/-- More units are answered more. -/
theorem isPrefix_log_first (o : Outside W) (template : String) (now : Timestamp)
    (us : List WorkUnit) (tally : Tally) (x : Progress W) {j k : Nat} (hjk : j ≤ k) :
    (first o template now us tally x j).2.log <+: (first o template now us tally x k).2.log := by
  have hsplit : us.take k = us.take j ++ (us.take k).drop j := by
    conv_lhs => rw [← List.take_append_drop j (us.take k), List.take_take, Nat.min_eq_left hjk]
  rw [first, first, hsplit, carryOut_append]
  exact Outside.isPrefix_log_bind _ _ _

end WorkUnit

namespace Service

open WorkUnit

variable {W : Type} {o : Outside W} {template : String} {now : Timestamp} {due : List Monitor}
  {x y : Progress W}

/-- What the first units come to that a cycle has to do for these monitors. -/
def first (o : Outside W) (template : String) (now : Timestamp) (due : List Monitor)
    (x : Progress W) (k : Nat) : Option (Except MonitorError Tally) × Progress W :=
  o.does none (unitsOf template now due k).run x

theorem first_of_lt {k : Nat} (h : k < due.length) : first o template now due x k =
    ((WorkUnit.first o template now (due.map .trigger) ⟨0, 0, 0⟩ x k).1.map .ok,
      (WorkUnit.first o template now (due.map .trigger) ⟨0, 0, 0⟩ x k).2) := by
  rw [first, unitsOf_run_of_lt h, Outside.does_map, WorkUnit.first, List.map_take]

theorem first_of_halt
    (h : o.does none (carryOut template now (due.map .trigger) ⟨0, 0, 0⟩) x = (none, y)) {k : Nat}
    (hk : due.length ≤ k) : first o template now due x k = (none, y) := by
  rw [first, unitsOf_run_of_le hk, Outside.does_bind_of_none _ h]

/-- The setting in which the runs in flight have been listed. -/
def listed (o : Outside W) (y : Progress W) : Progress W :=
  (o.performUntil none (.store .inFlight) y).2

theorem first_of_some {tally : Tally}
    (h : o.does none (carryOut template now (due.map .trigger) ⟨0, 0, 0⟩) x = (some tally, y))
    (i : Nat) : first o template now due x (due.length + i) =
      let done :=
        WorkUnit.first o template now (y.store.inFlight.map .reconcile) tally (listed o y) i
      (done.1.map .ok, done.2) := by
  rw [first, unitsOf_run_of_le (Nat.le_add_right _ _), Outside.does_bind_of_some _ h,
    Outside.does_call, Nat.add_sub_cancel_left]
  refine (Outside.does_map _ _ _).trans ?_
  rw [WorkUnit.first, List.map_take]
  rfl

/-- Before each trigger that is made, the cycle has not been told. -/
theorem first_before {moment : Option Nat} {k j : Nat} (hstops : StopsAfter moment
      (WorkUnit.first o template now (due.map .trigger) ⟨0, 0, 0⟩ x) due.length k)
    (hj : j < k) (hlt : j < due.length) :
    (first o template now due x j).2.isTold moment = false := by
  rw [first_of_lt hlt]
  exact hstops.before j hj

/-- The cycle stops in its first loop. -/
theorem stops_triggering {moment : Option Nat} {k n : Nat} (hk : k < due.length)
    (hstops : StopsAfter moment
      (WorkUnit.first o template now (due.map .trigger) ⟨0, 0, 0⟩ x) due.length k)
    (hdoes : o.does moment (carryOutUntilTold template now (due.map .trigger) ⟨0, 0, 0⟩) x =
      ((WorkUnit.first o template now (due.map .trigger) ⟨0, 0, 0⟩ x k).1.map (·, false),
        (WorkUnit.first o template now (due.map .trigger) ⟨0, 0, 0⟩ x k).2)) :
    StopsAfter moment (first o template now due x) n k ∧
      o.does moment (unitsUntilTold template now due) x = first o template now due x k := by
  refine ⟨⟨fun j hj => first_before hstops hj (Nat.lt_trans hj hk), fun _ => ?_⟩, ?_⟩
  · rw [first_of_lt hk]
    exact hstops.last hk
  · rw [first_of_lt hk]
    generalize WorkUnit.first o template now (due.map .trigger) ⟨0, 0, 0⟩ x k = part at hdoes
    obtain ⟨_ | tally, y⟩ := part
    · exact Outside.does_bind_of_none _ hdoes
    · exact Outside.does_bind_of_some _ hdoes

/-- The cycle stops in its second loop, if at all. -/
theorem stops_reconciling {moment : Option Nat} {tally : Tally}
    (h : o.does none (carryOut template now (due.map .trigger) ⟨0, 0, 0⟩) x = (some tally, y))
    (hbefore : ∀ j < due.length, (first o template now due x j).2.isTold moment = false)
    (hdoes : o.does moment (carryOutUntilTold template now (due.map .trigger) ⟨0, 0, 0⟩) x =
      (some (tally, true), y)) :
    ∃ i ≤ y.store.inFlight.length,
      StopsAfter moment (first o template now due x) (due.length + y.store.inFlight.length)
        (due.length + i) ∧
      o.does moment (unitsUntilTold template now due) x =
        first o template now due x (due.length + i) := by
  have hfirst := first_of_some h
  obtain ⟨i, hi, hstops, hdoes'⟩ := carryOutUntilTold_does o moment template now
    (y.store.inFlight.map .reconcile) tally (listed o y)
  rw [List.length_map] at hi hstops
  refine ⟨i, hi, ⟨fun j hj => ?_, fun hlt => ?_⟩, ?_⟩
  · obtain hlt | hle := Nat.lt_or_ge j due.length
    · exact hbefore j hlt
    · obtain ⟨i', rfl⟩ := Nat.le.dest hle
      rw [hfirst]
      exact hstops.before i' (Nat.lt_of_add_lt_add_left hj)
  · rw [hfirst]
    exact hstops.last (Nat.lt_of_add_lt_add_left hlt)
  · rw [hfirst, unitsUntilTold, Outside.does_bind_of_some _ hdoes]
    refine (Outside.does_map _ _ _).trans ?_
    show (Option.map _ (o.does moment _ (listed o y)).1, (o.does moment _ (listed o y)).2) = _
    rw [hdoes', Option.map_map]
    rfl

/-- A cycle has a number of units, and it does the first of them until it is told to stop. -/
theorem unitsUntilTold_does (o : Outside W) (template : String) (now : Timestamp)
    (due : List Monitor) (x : Progress W) :
    ∃ n, (∀ k ≥ n, first o template now due x k = first o template now due x n) ∧
      ∀ moment, ∃ k ≤ n, StopsAfter moment (first o template now due x) n k ∧
        o.does moment (unitsUntilTold template now due) x = first o template now due x k := by
  have hloop := fun moment =>
    carryOutUntilTold_does o moment template now (due.map .trigger) ⟨0, 0, 0⟩ x
  simp only [List.length_map] at hloop
  have hall := WorkUnit.first_length o template now (due.map .trigger) ⟨0, 0, 0⟩ x
  rw [List.length_map] at hall
  cases h : o.does none (carryOut template now (due.map .trigger) ⟨0, 0, 0⟩) x with
  | mk out y =>
    rw [h] at hall
    cases out with
    | none =>
      have hhalt {k : Nat} (hk : due.length ≤ k) := first_of_halt h hk
      refine ⟨due.length, fun k hk => (hhalt hk).trans (hhalt (Nat.le_refl _)).symm,
        fun moment => ?_⟩
      obtain ⟨k, hk, hstops, hdoes⟩ := hloop moment
      refine ⟨k, hk, ?_⟩
      obtain hlt | rfl := Nat.lt_or_eq_of_le hk
      · rw [decide_eq_false (Nat.ne_of_lt hlt)] at hdoes
        exact stops_triggering hlt hstops hdoes
      · refine ⟨⟨fun j hj => first_before hstops hj hj, fun h => absurd h (Nat.lt_irrefl _)⟩, ?_⟩
        rw [hall] at hdoes
        rw [hhalt (Nat.le_refl _)]
        exact Outside.does_bind_of_none _ hdoes
    | some tally =>
      refine ⟨due.length + y.store.inFlight.length, fun k hk => ?_, fun moment => ?_⟩
      · obtain ⟨i, rfl⟩ := Nat.le.dest hk
        rw [Nat.add_assoc, first_of_some h, first_of_some h, WorkUnit.first, WorkUnit.first,
          List.take_of_length_le (by simp), List.take_of_length_le (by simp)]
      · obtain ⟨k, hk, hstops, hdoes⟩ := hloop moment
        obtain hlt | rfl := Nat.lt_or_eq_of_le hk
        · rw [decide_eq_false (Nat.ne_of_lt hlt)] at hdoes
          exact ⟨k, Nat.le_trans hk (Nat.le_add_right _ _), stops_triggering hlt hstops hdoes⟩
        · rw [hall, decide_eq_true rfl] at hdoes
          obtain ⟨i, hi, hrest⟩ := stops_reconciling h
            (fun j hj => first_before hstops hj hj) hdoes
          exact ⟨due.length + i, Nat.add_le_add_left hi _, hrest⟩

/-- More units are answered more. -/
theorem isPrefix_log_first (o : Outside W) (template : String) (now : Timestamp)
    (due : List Monitor) (x : Progress W) {j k : Nat} (hjk : j ≤ k) :
    (first o template now due x j).2.log <+: (first o template now due x k).2.log := by
  have htriggers {j k : Nat} (hjk : j ≤ k) :=
    WorkUnit.isPrefix_log_first o template now (due.map .trigger) ⟨0, 0, 0⟩ x hjk
  obtain hk | hk := Nat.lt_or_ge k due.length
  · rw [first_of_lt (Nat.lt_of_le_of_lt hjk hk), first_of_lt hk]
    exact htriggers hjk
  obtain hj | hj := Nat.lt_or_ge j due.length
  · have hall : (WorkUnit.first o template now (due.map .trigger) ⟨0, 0, 0⟩ x j).2.log <+:
        (WorkUnit.first o template now (due.map .trigger) ⟨0, 0, 0⟩ x
          (due.map WorkUnit.trigger).length).2.log := htriggers (by simpa using Nat.le_of_lt hj)
    rw [WorkUnit.first_length] at hall
    rw [first_of_lt hj, first, unitsOf_run_of_le hk]
    exact hall.trans (Outside.isPrefix_log_bind _ _ _)
  cases h : o.does none (carryOut template now (due.map .trigger) ⟨0, 0, 0⟩) x with
  | mk out y =>
    cases out with
    | none => exact first_of_halt h hj ▸ first_of_halt h hk ▸ List.prefix_rfl
    | some tally =>
      obtain ⟨i, rfl⟩ := Nat.le.dest hj
      obtain ⟨i', rfl⟩ := Nat.le.dest hk
      rw [first_of_some h, first_of_some h]
      exact WorkUnit.isPrefix_log_first o _ _ _ _ _ (Nat.le_of_add_le_add_left hjk)

end Service

/-! ## What comes of being told -/

/-- Whether an exchange is one with the workflow plane. -/
def Exchange.isPlane : Exchange → Bool
  | ⟨.plane _, _⟩ => true
  | _ => false

/-- The calls of the workflow plane, with their answers. -/
def Progress.planeCalls {W : Type} (x : Progress W) : List Exchange := x.log.filter Exchange.isPlane

namespace Outside

open Service

variable {W : Type}

/-- A cycle that halts loses the lock. -/
def dropping {α : Type} (out : Option α × Progress W) : Option α × Progress W :=
  (out.1, { out.2 with held := out.1.isSome && out.2.held })

/-- What comes of a cycle that is told to stop at the moment, or never. -/
def cycleUntil (o : Outside W) (template : String) (moment : Option Nat) (w : W) (s : Store) :
    Option (Except MonitorError CycleOutcome) × Progress W :=
  dropping (o.does moment (cycle template).run ⟨w, s, false, []⟩)

/-- What comes of a cycle that does its first units only. -/
def cycleOf (o : Outside W) (template : String) (k : Nat) (w : W) (s : Store) :
    Option (Except MonitorError CycleOutcome) × Progress W :=
  dropping (o.does none (shortCycle template k) ⟨w, s, false, []⟩)

/-- How far a cycle is that has got the lock. -/
def locked (w : W) (s : Store) : Progress W := ⟨w, s, true, [⟨.acquireLock, .ok true⟩]⟩

/-- How far a cycle is that has done its first units, and what they have come to. -/
def unitsDone (o : Outside W) (template : String) (k : Nat) (w : W) (s : Store) :
    Option (Except MonitorError Tally) × Progress W :=
  o.does none (firstUnits template k).run (locked w s)

variable {o : Outside W} {template : String} {moment : Option Nat} {w : W} {s : Store}

theorem closing_keeps (out : Except MonitorError Tally) :
    (closing out).Keeps Call.IsWork fun _ => True := by
  refine ⟨nofun, fun _ => ?_⟩
  cases out <;> exact ⟨nofun, fun _ => trivial⟩

theorem does_closing (o : Outside W) (out : Except MonitorError Tally) (y : Progress W) :
    ∃ outer event, o.does none (closing out) y = (some (out.map .completed),
      ⟨outer, y.store, false, y.log ++ [⟨.releaseLock, .ok ()⟩] ++ [⟨.count event, ()⟩]⟩) := by
  cases out <;> exact ⟨_, _, rfl⟩

/-- The monitors that are due when the cycle reads the clock. -/
def due (o : Outside W) (w : W) (s : Store) : List Monitor := s.dueMonitors (o.answer .now w).1

/-- How far a cycle is that has the lock and knows which monitors are due. -/
def opened (o : Outside W) (w : W) (s : Store) : Progress W :=
  let x := (o.performUntil none .now (locked w s)).2
  (o.performUntil none (.store (.dueMonitors (o.answer .now w).1)) x).2

theorem unitsDone_eq (o : Outside W) (template : String) (k : Nat) (w : W) (s : Store) :
    o.unitsDone template k w s =
      first o template (o.answer .now w).1 (o.due w s) (o.opened w s) k := by
  rw [unitsDone, firstUnits_run]
  rfl

theorem lockedCycle_does (o : Outside W) (template : String) (moment : Option Nat) (w : W)
    (s : Store) : o.does moment (lockedCycle template).run (locked w s) =
      o.does moment (unitsUntilTold template (o.answer .now w).1 (o.due w s)) (o.opened w s) := by
  rw [lockedCycle_units]
  rfl

/-- A cycle that is told to stop does what the cycle does that does its first units only, if it does
so under the lock. -/
theorem cycleUntil_eq_cycleOf {k : Nat}
    (h : o.does moment (lockedCycle template).run (locked w s) = o.unitsDone template k w s) :
    o.cycleUntil template moment w s = o.cycleOf template k w s := by
  rw [cycleUntil, cycle_closes]
  exact congrArg dropping (does_bind_congr h closing_keeps)

/-- When its units are done a cycle gives the lock back and does nothing else but count. -/
theorem cycleOf_closes (o : Outside W) (template : String) (k : Nat) (w : W) (s : Store) :
    (o.cycleOf template k w s).1 =
        (o.unitsDone template k w s).1.map (Except.map .completed) ∧
      (o.cycleOf template k w s).2.held = false ∧
      (o.cycleOf template k w s).2.store = (o.unitsDone template k w s).2.store ∧
      ∃ last, (o.cycleOf template k w s).2.log = (o.unitsDone template k w s).2.log ++ last ∧
        ∀ e ∈ last, e.1 = .releaseLock ∨ ∃ event, e.1 = .count event := by
  have heq : o.does none (shortCycle template k) ⟨w, s, false, []⟩ =
      o.does none ((firstUnits template k).run.bind closing) (locked w s) := rfl
  rw [cycleOf, heq]
  cases h : o.unitsDone template k w s with
  | mk out y =>
    cases out with
    | none =>
      rw [does_bind_of_none closing h]
      exact ⟨rfl, rfl, rfl, [], by simp [dropping], by simp⟩
    | some out =>
      obtain ⟨outer, event, hcloses⟩ := does_closing o out y
      rw [does_bind_of_some closing h, hcloses]
      refine ⟨rfl, rfl, rfl, _, List.append_assoc _ _ _, ?_⟩
      simp

/-- A cycle has a number of units, and it does the first of them until it is told to stop. -/
theorem exists_units (o : Outside W) (template : String) (w : W) (s : Store) :
    ∃ n, (∀ k ≥ n, o.unitsDone template k w s = o.unitsDone template n w s) ∧
      ∀ moment, ∃ k ≤ n, StopsAfter moment (fun j => o.unitsDone template j w s) n k ∧
        o.cycleUntil template moment w s = o.cycleOf template k w s := by
  obtain ⟨n, hend, hstops⟩ :=
    unitsUntilTold_does o template (o.answer .now w).1 (o.due w s) (o.opened w s)
  refine ⟨n, fun k hk => ?_, fun moment => ?_⟩
  · rw [unitsDone_eq, unitsDone_eq, hend k hk]
  · obtain ⟨k, hk, hafter, hdoes⟩ := hstops moment
    refine ⟨k, hk, ?_, cycleUntil_eq_cycleOf ?_⟩
    · rwa [funext fun j => unitsDone_eq o template j w s]
    · rw [lockedCycle_does, hdoes, unitsDone_eq]

/-- A cycle that is not told to stop does all its units. -/
theorem cycleUntil_none {n : Nat}
    (hstops : ∃ k ≤ n, StopsAfter none (fun j => o.unitsDone template j w s) n k ∧
      o.cycleUntil template none w s = o.cycleOf template k w s) :
    o.cycleUntil template none w s = o.cycleOf template n w s := by
  obtain ⟨k, hk, hafter, hsame⟩ := hstops
  obtain hlt | rfl := Nat.lt_or_eq_of_le hk
  · cases hafter.last hlt
  · exact hsame

/-- What comes of a cycle depends on its units only. -/
theorem cycleOf_congr {k k' : Nat}
    (h : o.unitsDone template k w s = o.unitsDone template k' w s) :
    o.cycleOf template k w s = o.cycleOf template k' w s :=
  congrArg dropping (does_bind_congr h closing_keeps)

/-- What a cycle that does its first units does with the workflow plane, it does in these. -/
theorem planeCalls_cycleOf (o : Outside W) (template : String) (k : Nat) (w : W) (s : Store) :
    (o.cycleOf template k w s).2.planeCalls = (o.unitsDone template k w s).2.planeCalls := by
  obtain ⟨-, -, -, last, hlog, hlast⟩ := cycleOf_closes o template k w s
  have hnone : last.filter Exchange.isPlane = [] := by
    refine List.filter_eq_nil_iff.2 fun e he => ?_
    obtain ⟨c, answer⟩ := e
    obtain rfl | ⟨event, rfl⟩ := hlast _ he <;> exact Bool.false_ne_true
  rw [Progress.planeCalls, hlog, List.filter_append, hnone, List.append_nil, Progress.planeCalls]

/-- A cycle that has not triggered all monitors that are due has to do with no run. -/
theorem log_isTriggering {k : Nat} (hk : k < (o.due w s).length) :
    ∀ e ∈ (o.cycleOf template k w s).2.log, e.1.IsTriggering := by
  obtain ⟨-, -, -, last, hlog, hlast⟩ := cycleOf_closes o template k w s
  rw [hlog, unitsDone_eq]
  refine List.forall_mem_append.2 ⟨log_of_keeps (unitsOf_keeps_of_lt hk) ?_, fun e he => ?_⟩
  · have hopened : (o.opened w s).log = [⟨.acquireLock, .ok true⟩, ⟨.now, (o.answer .now w).1⟩,
      ⟨.store (.dueMonitors (o.answer .now w).1), .ok (o.due w s)⟩] := rfl
    rw [hopened]
    simp [Call.IsTriggering]
  · obtain h | ⟨event, h⟩ := hlast e he <;> simp [h, Call.IsTriggering]

/-- The counts of a cycle that does its first units only. -/
theorem cycleOf_counts {k : Nat} {tally : Tally}
    (h : (o.cycleOf template k w s).1 = some (.ok (.completed tally))) :
    tally.triggered + tally.failed = min k (o.due w s).length ∧
      tally.reconciled ≤ k - (o.due w s).length := by
  rw [(cycleOf_closes o template k w s).1, unitsDone_eq] at h
  cases hfirst : first o template (o.answer .now w).1 (o.due w s) (o.opened w s) k with
  | mk out y =>
    rw [hfirst] at h
    obtain rfl : out = some (.ok tally) := by
      rcases out with _ | _ | tally'
      · cases h
      · cases h
      · cases h
        rfl
    obtain hk | hk := Nat.lt_or_ge k (o.due w s).length
    · have := (unitsOf_keeps_of_lt hk).run hfirst tally rfl
      omega
    · have := (unitsOf_keeps_of_le hk).run hfirst tally rfl
      omega

/-- What it means for a cycle of `n` units that it is told to stop at the moment: that it does `k`
of them. -/
structure Interrupts (o : Outside W) (template : String) (w : W) (s : Store) (moment n k : Nat) :
    Prop where
  /-- It is not told before the last of these units begins. -/
  finishes : ∀ j < k, (o.unitsDone template j w s).2.log.length < moment
  /-- It is told before the next one would begin. -/
  stops : k < n → moment ≤ (o.unitsDone template k w s).2.log.length
  /-- It does what the cycle does that does its first `k` units only. -/
  same : o.cycleUntil template (some moment) w s = o.cycleOf template k w s
  /-- The store is that in which these units leave it. -/
  store : (o.cycleUntil template (some moment) w s).2.store = (o.unitsDone template k w s).2.store
  /-- The calls of the workflow plane are those of these units. -/
  plane : (o.cycleUntil template (some moment) w s).2.planeCalls =
    (o.unitsDone template k w s).2.planeCalls
  /-- Up to there the cycle that is not told to stop is answered the same. -/
  initial : (o.unitsDone template k w s).2.log <+: (o.cycleUntil template none w s).2.log
  /-- As long as not all monitors have been triggered that are due, no run is asked about and none
  is moved. -/
  ordered : k < (o.due w s).length →
    ∀ e ∈ (o.cycleUntil template (some moment) w s).2.log, e.1.IsTriggering
  /-- Its counts are those of so many units. -/
  counted : ∀ tally, (o.cycleUntil template (some moment) w s).1 = some (.ok (.completed tally)) →
    tally.triggered + tally.failed = min k (o.due w s).length ∧
      tally.reconciled ≤ k - (o.due w s).length
  /-- Nobody has the lock any more. -/
  free : (o.cycleUntil template (some moment) w s).2.held = false

/-- Whenever a cycle is told to stop, it finishes the unit of work that it is at and begins no
other. -/
theorem interrupted_cycle (o : Outside W) (template : String) (w : W) (s : Store) :
    ∃ n, (∀ k ≥ n, o.cycleOf template k w s = o.cycleUntil template none w s) ∧
      ∀ moment, ∃ k ≤ n, o.Interrupts template w s moment n k := by
  obtain ⟨n, hend, hstops⟩ := exists_units o template w s
  have hall := cycleUntil_none (hstops none)
  refine ⟨n, fun k hk => (cycleOf_congr (hend k hk)).trans hall.symm, fun moment => ?_⟩
  obtain ⟨k, hk, hafter, hsame⟩ := hstops (some moment)
  obtain ⟨-, hfree, hstore, -⟩ := cycleOf_closes o template k w s
  refine ⟨k, hk, ⟨fun j hj => ?_, fun hlt => ?_, hsame, ?_, ?_, ?_, fun hlt => ?_,
    fun tally h => ?_, ?_⟩⟩
  · exact Nat.lt_of_not_le (of_decide_eq_false (hafter.before j hj))
  · exact of_decide_eq_true (hafter.last hlt)
  · rw [hsame, hstore]
  · rw [hsame, planeCalls_cycleOf]
  · obtain ⟨-, -, -, last, hlog, -⟩ := cycleOf_closes o template n w s
    rw [hall, hlog, unitsDone_eq, unitsDone_eq]
    exact (isPrefix_log_first o _ _ _ _ hk).trans (List.prefix_append _ _)
  · rw [hsame]
    exact log_isTriggering hlt
  · exact cycleOf_counts (hsame ▸ h)
  · rw [hsame, hfree]

end Outside

end TraceWatch
