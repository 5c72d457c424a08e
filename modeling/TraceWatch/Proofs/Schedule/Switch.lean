import TraceWatch.Proofs.Monitors.Presence
import TraceWatch.Proofs.Program.Layout
import TraceWatch.Proofs.Store.Schedule

/-!
# Stops and starts

A stop and a start are one operation with two settings (`Switch`): it finds its monitor, looks at
the copy it was given, and makes a conditional call that looks again. Only such a call takes a
monitor off its schedule or puts it back (`Scene.Step.rescheduled`); what other operations write
keeps it where it is, however old the copy they work with.
-/

namespace TraceWatch

open Program

/-! ## The two settings -/

/-- A schedule is switched off by a stop and on by a start. -/
inductive Switch where
  | off
  | on
deriving DecidableEq, Repr

namespace Switch

/-- The activity that switches the schedule of the monitor of an organization with a name. -/
def activity (org name : String) : Switch → Activity
  | off => .stop org name
  | on => .start org name

/-- The operation that does it. -/
def operation (org name : String) : Switch → Operation MonitorView
  | off => Service.stop org name
  | on => Service.start org name

/-- The monitor is where the switch takes it. -/
def IsDone (m : Monitor) : Switch → Prop
  | off => m.nextRun = none
  | on => m.nextRun ≠ none

/-- What is wrong if the monitor is there already. -/
def fault (name : String) : Switch → StateFault
  | off => .alreadyStopped name
  | on => .alreadyActive name

/-- The monitor with its schedule switched, as the operation expects it to be. -/
def turn (m : Monitor) (now : Timestamp) : Switch → Except StateFault Monitor
  | off => m.suspend now
  | on => m.resume now

/-- The conditional call. -/
def write (m : Monitor) (now : Timestamp) : Switch → Program (Except StoreError Bool)
  | off => Program.store (.suspend m.id)
  | on => Program.store (.resume m.id (m.nextRun.getD now))

theorem operation_run (sw : Switch) (org name : String) :
    (sw.operation org name).run =
      .call (.store (.findByName org name)) fun
        | .error e => .done (.error (.store e))
        | .ok none => .done (.error (.monitorNotFound org name))
        | .ok (some m) => .call .now fun now =>
          match sw.turn m now with
          | .error fault => .done (.error (.invalidState fault))
          | .ok turned => (sw.write turned now).bind fun
            | .error e => .done (.error (.store e))
            | .ok true => (Service.view turned).run
            | .ok false => (Service.loadMonitor org name).run.bind
              (Operation.onward fun _ => throw (.invalidState (sw.fault name))) := by
  cases sw with
  | off =>
    refine (Service.stop_run org name).trans (call_congr fun answer => ?_)
    rcases answer with e | _ | m
    · rfl
    · rfl
    · refine call_congr fun now => ?_
      dsimp only [turn]
      cases m.suspend now with
      | error fault => rfl
      | ok stopped => exact call_congr fun answer => by rcases answer with e | _ | _ <;> rfl
  | on =>
    refine (Service.start_run org name).trans (call_congr fun answer => ?_)
    rcases answer with e | _ | m
    · rfl
    · rfl
    · refine call_congr fun now => ?_
      dsimp only [turn]
      cases m.resume now with
      | error fault => rfl
      | ok started => exact call_congr fun answer => by rcases answer with e | _ | _ <;> rfl

variable {sw : Switch} {m m' : Monitor}

/-- Whether the switch has been made depends on whether the monitor is on its schedule. -/
theorem isDone_congr (h : m'.nextRun.isSome = m.nextRun.isSome) : sw.IsDone m' ↔ sw.IsDone m := by
  cases sw with
  | off =>
    simp only [IsDone, ← Option.not_isSome_iff_eq_none, h]
  | on =>
    simp only [IsDone, ne_eq, ← Option.not_isSome_iff_eq_none, h]

/-- A future monitor cannot be switched where it is already. -/
theorem turn_error {now : Timestamp} {f : StateFault} (h : sw.turn m now = .error f) :
    m.isFuture = false ∨ (sw.IsDone m ∧ f = sw.fault m.name) := by
  cases sw with
  | off =>
    simp only [turn, Monitor.suspend] at h
    cases hfuture : m.isFuture with
    | false => exact .inl rfl
    | true =>
      rw [hfuture] at h
      cases hnext : m.nextRun with
      | none =>
        rw [hnext] at h
        exact .inr ⟨hnext, (Except.error.inj h).symm⟩
      | some t =>
        rw [hnext] at h
        cases h
  | on =>
    simp only [turn, Monitor.resume] at h
    cases hfuture : m.isFuture with
    | false => exact .inl rfl
    | true =>
      rw [hfuture] at h
      cases hnext : m.nextRun with
      | none =>
        rw [hnext] at h
        cases h
      | some t =>
        rw [hnext] at h
        exact .inr ⟨by simp [IsDone, hnext], (Except.error.inj h).symm⟩

theorem turn_id {now : Timestamp} {turned : Monitor} (h : sw.turn m now = .ok turned) :
    turned.id = m.id := by
  cases sw with
  | off => rw [Service.suspend_eq h]
  | on => rw [Service.resume_eq h]

end Switch

/-! ## Moves and events -/

/-- The move is an attempt to switch a schedule, and its answer is whether that was done. -/
inductive Move.Attempts (id : Uuid) (done : Bool) : Switch → Move → Prop
  | off (before after : Store) :
    Attempts id done .off ⟨.store (.suspend id), .ok done, before, after⟩
  | on (next : Timestamp) (before after : Store) :
    Attempts id done .on ⟨.store (.resume id next), .ok done, before, after⟩

/-- With the event the task, a stop or a start, attempts to switch the schedule of the monitor. The
answer is whether that was done. -/
inductive Event.Attempts (m : Monitor) (k : Nat) (done : Bool) : Switch → Event → Prop
  | off : Attempts m k done .off (.call k (.stop m.org m.name) (.store (.suspend m.id)) (.ok done))
  | on (next : Timestamp) :
    Attempts m k done .on (.call k (.start m.org m.name) (.store (.resume m.id next)) (.ok done))

/-- With the event the task, a stop or a start, switches the schedule of the monitor. -/
abbrev Event.Switches (m : Monitor) (k : Nat) (sw : Switch) (e : Event) : Prop :=
  e.Attempts m k true sw

/-- Whether the monitor is stopped or started with the event. -/
def Event.isSwitch (id : Uuid) : Event → Bool
  | call _ _ (.store (.suspend id')) (.ok true) | call _ _ (.store (.resume id' _)) (.ok true) =>
    id' = id
  | _ => false

/-- The instant to which a cycle moves the schedule of the monitor with the event, if the monitor is
on it. -/
def Event.movedTo? (id : Uuid) : Event → Option Timestamp
  | call _ _ (.store (.advance id' next)) _ => if id' = id then some next else none
  | _ => none

namespace Event

variable {m m' : Monitor} {k : Nat} {done : Bool} {sw : Switch} {e : Event}

theorem Attempts.isSwitch (h : e.Switches m k sw) : e.isSwitch m.id = true := by
  cases h <;> exact decide_eq_true rfl

/-- A schedule is moved by the call for it. -/
theorem of_movedTo? {id : Uuid} {next : Timestamp} (h : e.movedTo? id = some next) :
    ∃ k a answer, e = .call k a (.store (.advance id next)) answer := by
  unfold movedTo? at h
  split at h
  · split at h
    · next hid =>
      cases hid
      cases h
      exact ⟨_, _, _, rfl⟩
    · cases h
  · cases h

/-- An attempt for one copy of a monitor is one for every other. -/
theorem Attempts.congr (h : e.Attempts m k done sw) (hid : m'.id = m.id) (horg : m'.org = m.org)
    (hname : m'.name = m.name) : e.Attempts m' k done sw := by
  cases h with
  | off =>
    rw [← hid, ← horg, ← hname]
    exact .off
  | on next =>
    rw [← hid, ← horg, ← hname]
    exact .on next

/-- It is one for every copy that agrees in what is fixed. -/
theorem Attempts.of_origin (h : e.Attempts m k done sw) (horigin : m'.origin = m.origin) :
    e.Attempts m' k done sw :=
  have ⟨hid, horg, hname⟩ := Monitor.identity_eq horigin
  h.congr hid horg hname

end Event

/-! ## How a switch goes -/

/-- Among the moves a monitor is looked for by its name, and this is what is found. -/
def Looks (org name : String) (found : Option Monitor) (moves : List Move) : Prop :=
  ∃ before after, ⟨.store (.findByName org name), .ok found, before, after⟩ ∈ moves

/-- A view is always given. -/
theorem Service.view_plays {m : Monitor} {moves : List Move}
    {result : Except MonitorError MonitorView} (h : Plays (view m).run moves result) :
    ∃ shown, result = .ok shown := by
  rw [view_run] at h
  obtain ⟨answer, before, after, rest, rfl, ⟨now, hanswer⟩, h⟩ := h.of_call
  rcases answer with e | _ | latest
  · cases congrArg Prod.fst hanswer
  · exact ⟨_, h.of_done.2⟩
  · obtain ⟨first, second, shown, rfl, -, h⟩ := h.of_bind
    exact ⟨_, h.of_done.2⟩

/-- What is looked for by a name is not found, or it bears the name. -/
theorem Program.Plays.of_find {α : Type} {org name : String}
    {next : Except StoreError (Option Monitor) → Program α} {moves : List Move} {v : α}
    (h : Plays (.call (.store (.findByName org name)) next) moves v) :
    ∃ found before after rest,
      moves = ⟨.store (.findByName org name), .ok found, before, after⟩ :: rest ∧
      (∀ m ∈ found, m.org = org ∧ m.name = name) ∧ Plays (next (.ok found)) rest v := by
  obtain ⟨answer, before, after, rest, rfl, ⟨now, hanswer⟩, h⟩ := h.of_call
  have hfound : answer = .ok (before.findByName org name) := congrArg Prod.fst hanswer
  subst hfound
  exact ⟨_, before, after, rest, rfl, fun m hm => Store.named_of_findByName hm, h⟩

namespace Switch

/-- The conditional call of a switch is an attempt. -/
theorem write_plays {sw : Switch} {m : Monitor} {now : Timestamp} {moves : List Move}
    {answer : Except StoreError Bool} (h : Plays (sw.write m now) moves answer) :
    ∃ done move, answer = .ok done ∧ moves = [move] ∧ move.Attempts m.id done sw := by
  cases sw with
  | off =>
    obtain ⟨answer, before, after, rest, rfl, ⟨now, hanswer⟩, h⟩ := h.of_call
    obtain ⟨rfl, rfl⟩ := h.of_done
    obtain rfl : answer = .ok _ := congrArg Prod.fst hanswer
    exact ⟨_, _, rfl, rfl, .off before after⟩
  | on =>
    obtain ⟨answer, before, after, rest, rfl, ⟨now, hanswer⟩, h⟩ := h.of_call
    obtain ⟨rfl, rfl⟩ := h.of_done
    obtain rfl : answer = .ok _ := congrArg Prod.fst hanswer
    exact ⟨_, _, rfl, rfl, .on _ before after⟩

/-- No move changes anything: each only reads, or it is an attempt that is in vain. -/
def InVain (sw : Switch) (moves : List Move) : Prop :=
  ∀ move ∈ moves, move.call.isRead = true ∨ ∃ id, move.Attempts id false sw

namespace InVain

variable {sw : Switch} {moves : List Move} {move : Move}

theorem nil : sw.InVain [] := List.forall_mem_nil _

theorem read (hmove : move.call.isRead = true) (h : sw.InVain moves) : sw.InVain (move :: moves) :=
  List.forall_mem_cons.2 ⟨.inl hmove, h⟩

theorem attempt {id : Uuid} (hmove : move.Attempts id false sw) (h : sw.InVain moves) :
    sw.InVain (move :: moves) :=
  List.forall_mem_cons.2 ⟨.inr ⟨id, hmove⟩, h⟩

/-- No attempt among the moves is successful. -/
theorem not_attempts (h : sw.InVain moves) (hmove : move ∈ moves) (id : Uuid) :
    ¬ move.Attempts id true sw := by
  intro hattempts
  rcases h move hmove with hread | ⟨_, hvain⟩
  · cases hattempts <;> cases hread
  · cases hattempts <;> cases hvain

end InVain

/-- How a switch may go: what its task has seen and done, and what it returns. -/
inductive Course (sw : Switch) (org name : String) (moves : List Move) {α : Type} :
    Except MonitorError α → Prop
  /-- It has not found its monitor. -/
  | missed : Looks org name none moves → sw.InVain moves →
    Course sw org name moves (.error (.monitorNotFound org name))
  /-- It has found a monitor that cannot be switched. -/
  | past (m : Monitor) (f : StateFault) : Looks org name (some m) moves → sw.InVain moves →
    m.isFuture = false → Course sw org name moves (.error (.invalidState f))
  /-- It has found its monitor switched already, or its only attempt has been in vain. -/
  | late (m : Monitor) : Looks org name (some m) moves → sw.InVain moves →
    (sw.IsDone m ∨ ∃ move ∈ moves, move.Attempts m.id false sw) →
    Course sw org name moves (.error (.invalidState (sw.fault name)))
  /-- It has made its attempt with success. -/
  | made (m : Monitor) (move : Move) (shown : α) : Looks org name (some m) moves → move ∈ moves →
    move.Attempts m.id true sw → Course sw org name moves (.ok shown)

/-- A switch takes one of these courses, whatever happens meanwhile. -/
theorem plays (sw : Switch) {org name : String} {moves : List Move}
    {result : Except MonitorError MonitorView}
    (h : Plays (sw.operation org name).run moves result) :
    sw.Course org name moves result := by
  rw [operation_run] at h
  obtain ⟨found, s₁, s₁', rest, rfl, hnamed, h⟩ := h.of_find
  cases found with
  | none =>
    obtain ⟨rfl, rfl⟩ := h.of_done
    exact .missed ⟨s₁, s₁', .head _⟩ (.read rfl .nil)
  | some m =>
    obtain ⟨-, hname⟩ := hnamed m rfl
    obtain ⟨now, s₂, s₂', rest, rfl, -, h⟩ := h.of_call
    cases hturn : sw.turn m now with
    | error f =>
      rw [hturn] at h
      obtain ⟨rfl, rfl⟩ := h.of_done
      rcases turn_error hturn with hpast | ⟨hdone, rfl⟩
      · exact .past m f ⟨s₁, s₁', .head _⟩ (.read rfl (.read rfl .nil)) hpast
      · rw [hname]
        exact .late m ⟨s₁, s₁', .head _⟩ (.read rfl (.read rfl .nil)) (.inl hdone)
    | ok turned =>
      rw [hturn] at h
      obtain ⟨first, second, answer, rfl, hwrite, h⟩ := h.of_bind
      obtain ⟨done, move, rfl, rfl, hattempts⟩ := write_plays hwrite
      rw [turn_id hturn] at hattempts
      cases done with
      | true =>
        obtain ⟨shown, rfl⟩ := Service.view_plays h
        exact .made m move shown ⟨s₁, s₁', .head _⟩ (.tail _ (.tail _ (.head _))) hattempts
      | false =>
        -- the operation looks again, to tell whether the monitor is gone
        rw [Service.loadMonitor_run] at h
        obtain ⟨again, s₃, s₃', rest, rfl, -, h⟩ := h.of_find
        cases again with
        | none =>
          obtain ⟨rfl, rfl⟩ := h.of_done
          exact .missed ⟨s₃, s₃', .tail _ (.tail _ (.tail _ (.head _)))⟩
            (.read rfl (.read rfl (.attempt hattempts (.read rfl .nil))))
        | some _ =>
          obtain ⟨rfl, rfl⟩ := h.of_done
          exact .late m ⟨s₁, s₁', .head _⟩
            (.read rfl (.read rfl (.attempt hattempts (.read rfl .nil))))
            (.inr ⟨move, .tail _ (.tail _ (.head _)), hattempts⟩)

/-- A switch comes to an end. -/
theorem returns (sw : Switch) (org name : String) : (sw.operation org name).run.Returns := by
  rw [operation_run]
  rintro (e | _ | m)
  · trivial
  · trivial
  · intro now
    dsimp only
    cases sw.turn m now with
    | error f => trivial
    | ok turned =>
      refine Returns.bind (fun answer => ?_) ?_
      · rcases answer with e | _ | _
        · trivial
        · rw [Service.loadMonitor_run]
          rintro (e | _ | m) <;> trivial
        · exact (Service.readsOnly_view turned).returns
      · cases sw with
        | off => exact fun _ => trivial
        | on => exact fun _ => trivial

/-- So does the activity that is the switch. -/
theorem activity_plays {sw : Switch} {org name : String} {moves : List Move}
    {result : Except MonitorError (sw.activity org name).Result}
    (h : Plays (sw.activity org name).operation.run moves result) :
    sw.Course org name moves result := by
  cases sw with
  | off => exact off.plays h
  | on => exact on.plays h

theorem activity_returns (sw : Switch) (org name : String) :
    (sw.activity org name).operation.run.Returns := by
  cases sw with
  | off => exact returns .off org name
  | on => exact returns .on org name

end Switch

/-! ## What a switch does -/

namespace Scene

variable {s s' : Scene} {e : Event} {es : List Event} {m m' : Monitor} {k : Nat} {sw : Switch}

/-- What a task finds under a name is what is stored under it then. -/
theorem Step.findByName_eq {a : Activity} {org name : String} {found : Option Monitor}
    (h : Step s (.call k a (.store (.findByName org name)) (.ok found)) s') :
    s.commons.store.findByName org name = found := by
  cases h with
  | call _ hw => exact (Except.ok.inj hw.1).symm

/-- A task that is about to change a stored monitor knows what is fixed about it. -/
theorem Reachable.origin_eq_of_poised (hs : s.Reachable) {m₀ : Monitor} {now : Timestamp}
    (hphase : s.phase k = .poised m₀ now) (hm : m ∈ s.commons.store.monitors)
    (heq : m.id = m₀.id) : m.origin = m₀.origin :=
  (hs.fixes m₀ (.inr ⟨k, by rw [hphase]; exact .head _⟩)).known m (.inl hm) heq

/-- An attempt is successful exactly if the stored monitor can be switched and is not yet. -/
theorem Step.attempt_iff (h : Step s e s') (hs : s.Reachable) {done : Bool}
    (he : e.Attempts m k done sw) (hm : m ∈ s.commons.store.monitors) :
    done = true ↔ m.isFuture = true ∧ ¬ sw.IsDone m := by
  have hids := hs.isConsistent.ids
  cases he with
  | off =>
    cases h with
    | call _ hw =>
      have hdone : done = (m.isFuture && m.nextRun.isSome) :=
        Except.ok.inj (hw.1.trans (StoreCall.suspend_answer hids hm))
      rw [hdone, Bool.and_eq_true, ← Option.ne_none_iff_isSome]
      rfl
  | on next =>
    cases h with
    | call _ hw =>
      have hdone : done = (m.isFuture && m.nextRun.isNone) :=
        Except.ok.inj (hw.1.trans (StoreCall.resume_answer hids hm next))
      rw [hdone, Bool.and_eq_true, Option.isNone_iff_eq_none]
      simp only [Switch.IsDone, ne_eq, not_not]

/-- After a successful attempt the stored monitor is where the switch takes it. -/
theorem Step.isDone (h : Step s e s') (he : e.Switches m k sw)
    (hm' : m' ∈ s'.commons.store.monitors) (heq : m'.id = m.id) : sw.IsDone m' := by
  cases he with
  | off =>
    cases h with
    | call _ hw =>
      obtain ⟨hanswer, rfl⟩ := hw
      exact StoreCall.nextRun_of_reschedule (Except.ok.inj hanswer).symm hm' heq
  | on next =>
    cases h with
    | call _ hw =>
      obtain ⟨hanswer, rfl⟩ := hw
      have hnext : m'.nextRun = some next :=
        StoreCall.nextRun_of_reschedule (Except.ok.inj hanswer).symm hm' heq
      simp only [Switch.IsDone, hnext, ne_eq, reduceCtorEq, not_false_eq_true]

/-- A successful attempt is for a stored monitor. -/
theorem Step.exists_switched (h : Step s e s') (hs : s.Reachable) (he : e.Switches m k sw) :
    ∃ m₁ ∈ s.commons.store.monitors, m₁.id = m.id ∧ m₁.org = m.org ∧ m₁.name = m.name := by
  -- the store has a monitor under the identifier, and the caller has one under the name
  obtain ⟨m₁, hm₁, hid, m₀, now, hphase, hid₀, horg, hname⟩ :
      ∃ m₁ ∈ s.commons.store.monitors, m₁.id = m.id ∧ ∃ m₀ now, s.phase k = .poised m₀ now ∧
        m.id = m₀.id ∧ m.org = m₀.org ∧ m.name = m₀.name := by
    cases he with
    | off =>
      cases h with
      | call hpassage hw =>
        obtain ⟨m₁, hm₁, hid, -⟩ := StoreCall.exists_of_reschedule (Except.ok.inj hw.1).symm
        obtain ⟨m₀, now, hphase, hid₀, hactivity⟩ := hpassage.suspend
        exact ⟨m₁, hm₁, hid, m₀, now, hphase, hid₀, Activity.stop.inj hactivity⟩
    | on next =>
      cases h with
      | call hpassage hw =>
        obtain ⟨m₁, hm₁, hid, -⟩ := StoreCall.exists_of_reschedule (Except.ok.inj hw.1).symm
        obtain ⟨m₀, hphase, hid₀, hactivity⟩ := hpassage.resume
        exact ⟨m₁, hm₁, hid, m₀, next, hphase, hid₀, Activity.start.inj hactivity⟩
  obtain ⟨-, horg₁, hname₁⟩ :=
    Monitor.identity_eq (hs.origin_eq_of_poised hphase hm₁ (hid.trans hid₀))
  exact ⟨m₁, hm₁, hid, horg₁.trans horg.symm, hname₁.trans hname.symm⟩

/-- A monitor that stays in the store stays due when it was due before, or a cycle moves the
schedule it is on, or it is switched. -/
theorem Step.rescheduled (h : Step s e s') (hs : s.Reachable) (hm : m ∈ s.commons.store.monitors)
    (hm' : m' ∈ s'.commons.store.monitors) (heq : m'.id = m.id) :
    m'.nextRun = m.nextRun ∨
      (m.nextRun.isSome = true ∧ ∃ next, e.movedTo? m.id = some next ∧ m'.nextRun = some next) ∨
      ∃ k sw, e.Switches m k sw := by
  have hids := hs.isConsistent.ids
  rcases h.call_or_rests with ⟨k, a, c, answer, rfl⟩ | ⟨-, hrests⟩
  · cases h with
    | @call w w' g _ _ _ _ φ hpassage hw =>
      have hspent := hs.spent_of_monitor ⟨m, hm, heq.symm⟩
      have hres := hw.reschedules hids hm hm' heq (hspent.ne_createMonitor hpassage)
      generalize m'.nextRun = next at hres
      rcases hres with hsame | hres
      · exact .inl hsame
      cases hres with
      | advance next hsome => exact .inr (.inl ⟨hsome, next, if_pos rfl, rfl⟩)
      | suspend =>
        obtain ⟨m₀, now, hphase, hid₀, rfl⟩ := hpassage.suspend
        rw [hid₀]
        exact .inr (.inr ⟨k, .off, .of_origin .off (hs.origin_eq_of_poised hphase hm hid₀)⟩)
      | resume next =>
        obtain ⟨m₀, hphase, hid₀, rfl⟩ := hpassage.resume
        rw [hid₀]
        exact .inr (.inr ⟨k, .on, .of_origin (.on next) (hs.origin_eq_of_poised hphase hm hid₀)⟩)
  · rw [hrests.store] at hm'
    rw [List.inj_on_of_nodup_map hids hm' hm heq]
    exact .inl rfl

/-- A stored monitor gets where a switch takes it by a successful attempt only. -/
theorem Step.switched (h : Step s e s') (hs : s.Reachable) (hm : m ∈ s.commons.store.monitors)
    (hm' : m' ∈ s'.commons.store.monitors) (heq : m'.id = m.id) (hbefore : ¬ sw.IsDone m)
    (hafter : sw.IsDone m') : ∃ k, e.Switches m k sw := by
  rcases h.rescheduled hs hm hm' heq with hsame | ⟨hsome, next, -, hnext⟩ | ⟨k, sw', hswitches⟩
  · exact absurd ((Switch.isDone_congr (by rw [hsame])).1 hafter) hbefore
  · exact absurd ((Switch.isDone_congr (by rw [hnext, hsome]; rfl)).1 hafter) hbefore
  · -- a switch the other way takes it somewhere else
    have hdone : sw'.IsDone m' := h.isDone hswitches hm' heq
    cases sw <;> cases sw'
    case off.off | on.on => exact ⟨k, hswitches⟩
    case off.on => exact absurd hafter hdone
    case on.off => exact absurd hdone hafter

/-- A stored monitor that is on its schedule and is not switched is due when it was due before, or
to where a cycle moves the schedule. -/
theorem Step.nextRun_eq (h : Step s e s') (hs : s.Reachable) (hm : m ∈ s.commons.store.monitors)
    (hm' : m' ∈ s'.commons.store.monitors) (heq : m'.id = m.id)
    (hnot : e.isSwitch m.id = false) {t : Timestamp} (ht : m.nextRun = some t) :
    m'.nextRun = some ((e.movedTo? m.id).getD t) := by
  cases hmoved : e.movedTo? m.id with
  | none =>
    rcases h.rescheduled hs hm hm' heq with hsame | ⟨-, next, hnext, -⟩ | ⟨k, sw, hswitches⟩
    · exact hsame.trans ht
    · rw [hmoved] at hnext
      cases hnext
    · rw [hswitches.isSwitch] at hnot
      cases hnot
  | some next =>
    obtain ⟨k, a, answer, rfl⟩ := Event.of_movedTo? hmoved
    cases h with
    | call _ hw =>
      obtain ⟨-, rfl⟩ := hw
      refine StoreCall.nextRun_of_advance ⟨m, hm, rfl⟩ (fun m₁ hm₁ heq₁ => ?_) hm' heq
      rw [List.inj_on_of_nodup_map hs.isConsistent.ids hm₁ hm heq₁, ht]
      rfl

end Scene

end TraceWatch
