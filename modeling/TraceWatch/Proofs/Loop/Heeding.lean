import TraceWatch.Proofs.Cycle.Units
import TraceWatch.Proofs.Lock.Discipline

/-!
# Cycles heed what they are told

Between two units of work a cycle only keeps its books: it takes the lock and gives it back, reads
what is due and what is in flight, counts, and looks whether it has been told to stop. A program is
heeding if it does a unit of work only after it has looked and has not been told to stop
(`Program.Heeding`); a cycle is (`Service.cycle_heeding`). So what a cycle has still to do is known
by what it has been answered: it is between two units, or within one, which it began when it was
last told to go on (`Program.Underway`). Once it is told to stop, all that it calls for is what this
one unit calls for, and after that it keeps its books (`Program.Closing`, `ClosesOnly`).
-/

namespace TraceWatch

/-- The call neither calls the workflow plane nor changes the store. -/
def Call.IsBookkeeping : Call → Prop
  | now | cancelled | count _ | acquireLock | releaseLock => True
  | store c => c.isRead = true
  | freshId | plane _ => False

namespace Program

variable {α β : Type}

/-- What the program has come to by answers to its calls, the latest last. -/
inductive Comes (p : Program α) : List Exchange → Program α → Prop
  | nil : Comes p [] p
  | snoc {log : List Exchange} {c : Call} {next : c.Answer → Program α} (answer : c.Answer) :
    Comes p log (.call c next) → Comes p (log ++ [⟨c, answer⟩]) (next answer)

/-- The program keeps its books, and does a unit of work only after it has looked whether to stop
and has not been told to. -/
inductive Heeding (template : String) : Program α → Prop
  | done (v : α) : Heeding template (.done v)
  | keeps {c : Call} {next : c.Answer → Program α} : c.IsBookkeeping → c ≠ .cancelled →
    (∀ answer, Heeding template (next answer)) → Heeding template (.call c next)
  | looks {next : Bool → Program α} {u : WorkUnit} {now : Timestamp} {f : Tally → Program α} :
    Heeding template (next true) → next false = (u.program template now).bind f →
      (∀ counted, Heeding template (f counted)) → Heeding template (.call .cancelled next)

variable {template : String}

theorem Heeding.bind {p : Program α} {f : α → Program β} (hf : ∀ v, (f v).Heeding template)
    (h : p.Heeding template) : (p.bind f).Heeding template := by
  induction h with
  | done v => exact hf v
  | keeps hc hnot _ ih => exact .keeps hc hnot ih
  | @looks next u now _ _ hunit _ ihstop ihrest =>
    have hgoes : (next false).bind f = (u.program template now).bind _ :=
      (congrArg (Program.bind · f) hunit).trans (bind_assoc _ _ _)
    exact .looks ihstop hgoes ihrest

end Program

open Program

/-! ## Cycles are heeding -/

variable {template : String} {now : Timestamp}

/-- Units that are carried out until one is told to stop. -/
theorem WorkUnit.carryOutUntilTold_heeding : ∀ (us : List WorkUnit) (tally : Tally),
    (carryOutUntilTold template now us tally).Heeding template
  | [], _ => .done _
  | _ :: rest, _ => .looks (.done _) rfl fun _ => carryOutUntilTold_heeding rest _

namespace Service

open WorkUnit

theorem unitsUntilTold_heeding (due : List Monitor) :
    (unitsUntilTold template now due).Heeding template := by
  refine (carryOutUntilTold_heeding _ _).bind fun ⟨tally, finished⟩ => ?_
  cases finished with
  | false => exact .done _
  | true =>
    refine .keeps rfl nofun fun answer => ?_
    cases answer with
    | error e => exact .done _
    | ok entries => exact (carryOutUntilTold_heeding _ _).bind fun _ => .done _

theorem lockedCycle_heeding : (lockedCycle template).run.Heeding template := by
  rw [lockedCycle_units]
  refine .keeps trivial nofun fun now => .keeps rfl nofun fun answer => ?_
  cases answer with
  | error e => exact .done _
  | ok due => exact unitsUntilTold_heeding due

/-- A cycle does a unit of work only after it has looked whether to stop and has not been told
to. -/
theorem cycle_heeding (template : String) : (cycle template).run.Heeding template := by
  rw [cycle_opens]
  refine .keeps trivial nofun fun answer => ?_
  rcases answer with e | _ | _
  · exact .done _
  · exact .keeps trivial nofun fun _ => .done _
  · refine lockedCycle_heeding.bind fun result => .keeps trivial nofun fun _ => ?_
    cases result with
    | ok tally => exact .keeps trivial nofun fun _ => .done _
    | error e => exact .keeps trivial nofun fun _ => .done _

end Service

/-! ## On the way -/

/-- The unit that was begun when its caller was last told to go on makes these calls next. -/
def ContinuesUnit (template : String) (before first : List Exchange) : Prop :=
  ∃ (u : WorkUnit) (now : Timestamp) (earlier since : List Exchange) (rest : Program Tally),
    before = earlier ++ ⟨.cancelled, false⟩ :: since ∧
      (u.program template now).Comes (since ++ first) rest

/-- All these calls belong to the unit of work in progress before them, or keep the books after
it. -/
def ClosesOnly (template : String) (before log : List Exchange) : Prop :=
  ∃ first second, log = first ++ second ∧
    (first = [] ∨ ContinuesUnit template before first) ∧ ∀ x ∈ second, x.1.IsBookkeeping

namespace Program

variable {α : Type}

/-- After these answers the program is between two units, or within the one that it began when it
was last told to go on. -/
inductive Underway (template : String) (log : List Exchange) : Program α → Prop
  | between {p : Program α} : p.Heeding template → Underway template log p
  | within {u : WorkUnit} {now : Timestamp} {earlier since : List Exchange} {rest : Program Tally}
    {f : Tally → Program α} : log = earlier ++ ⟨.cancelled, false⟩ :: since →
      (u.program template now).Comes since rest → (∀ counted, (f counted).Heeding template) →
        Underway template log (rest.bind f)

/-- A program that was told to stop after the answers `before` comes to its end: it is within the
unit that was in progress, or it keeps its books. -/
inductive Closing (template : String) (before log : List Exchange) : Program α → Prop
  | within {u : WorkUnit} {now : Timestamp} {earlier since : List Exchange} {rest : Program Tally}
    {f : Tally → Program α} : before = earlier ++ ⟨.cancelled, false⟩ :: since →
      (u.program template now).Comes (since ++ log) rest →
        (∀ counted, (f counted).Heeding template) → Closing template before log (rest.bind f)
  | after {p : Program α} : p.Heeding template → ClosesOnly template before log →
    Closing template before log p

variable {log before : List Exchange} {p : Program α} {c : Call} {next : c.Answer → Program α}

/-- A heeding program that has been answered is between two units, or has just been told to go on
with one. -/
theorem Heeding.answered (h : (Program.call c next).Heeding template) (answer : c.Answer) :
    (next answer).Underway template (log ++ [⟨c, answer⟩]) := by
  cases h with
  | keeps _ _ hrest => exact .between (hrest answer)
  | looks hstop hunit hrest =>
    cases answer with
    | true => exact .between hstop
    | false =>
      rw [hunit]
      exact .within rfl .nil hrest

/-- A heeding program that is not told to go on keeps its books. -/
theorem Heeding.answered_of_told (h : (Program.call c next).Heeding template) {answer : c.Answer}
    (htold : (⟨c, answer⟩ : Exchange) ≠ ⟨.cancelled, false⟩) :
    c.IsBookkeeping ∧ (next answer).Heeding template := by
  cases h with
  | keeps hc _ hrest => exact ⟨hc, hrest answer⟩
  | looks hstop _ _ =>
    cases answer with
    | true => exact ⟨trivial, hstop⟩
    | false => exact absurd rfl htold

/-- A program that goes on with another calls first for what it calls for itself. -/
theorem of_bind_eq_call {β : Type} {p : Program β} {f : β → Program α}
    (h : p.bind f = .call c next) : (∃ v, p = .done v ∧ f v = .call c next) ∨
      ∃ own, p = .call c own ∧ ∀ answer, next answer = (own answer).bind f := by
  cases p with
  | done v => exact .inl ⟨v, rfl, h⟩
  | halt => cases h
  | call d own =>
    cases h
    exact .inr ⟨own, rfl, fun _ => rfl⟩

theorem Underway.answered (h : (Program.call c next).Underway template log) (answer : c.Answer) :
    (next answer).Underway template (log ++ [⟨c, answer⟩]) := by
  generalize hp : Program.call c next = p at h
  cases h with
  | between hheeds =>
    subst hp
    exact hheeds.answered answer
  | @within u now earlier since rest f hlog hcomes hrest =>
    rcases of_bind_eq_call hp.symm with ⟨counted, -, heq⟩ | ⟨own, rfl, hnext⟩
    · -- the unit has come to its end
      have hheeds : (Program.call c next).Heeding template := heq ▸ hrest counted
      exact hheeds.answered answer
    · rw [hnext, hlog, List.append_assoc, List.cons_append]
      exact .within rfl (.snoc answer hcomes) hrest

theorem Underway.closing (h : Underway template log p) : Closing template log [] p := by
  cases h with
  | between hheeds => exact .after hheeds ⟨[], [], rfl, .inl rfl, List.forall_mem_nil _⟩
  | within hlog hcomes hrest =>
    exact .within hlog (by rwa [List.append_nil]) hrest

theorem Closing.closesOnly (h : Closing template before log p) :
    ClosesOnly template before log := by
  cases h with
  | within hbefore hcomes _ =>
    exact ⟨log, [], (List.append_nil _).symm, .inr ⟨_, _, _, _, _, hbefore, hcomes⟩,
      List.forall_mem_nil _⟩
  | after _ hlog => exact hlog

/-- A program that comes to its end goes on to do so while it is not told to go on. -/
theorem Closing.answered (h : (Program.call c next).Closing template before log)
    {answer : c.Answer} (htold : (⟨c, answer⟩ : Exchange) ≠ ⟨.cancelled, false⟩) :
    (next answer).Closing template before (log ++ [⟨c, answer⟩]) := by
  have hlog := h.closesOnly
  -- what keeps its books after `log` has one call more of that sort
  have hkept (hheeds : (Program.call c next).Heeding template) :
      (next answer).Closing template before (log ++ [⟨c, answer⟩]) := by
    obtain ⟨hc, hnext⟩ := hheeds.answered_of_told htold
    obtain ⟨first, second, rfl, hfirst, hsecond⟩ := hlog
    refine .after hnext ⟨first, second ++ [⟨c, answer⟩], List.append_assoc _ _ _, hfirst, ?_⟩
    exact List.forall_mem_append.2 ⟨hsecond, List.forall_mem_singleton.2 hc⟩
  generalize hp : Program.call c next = p at h
  cases h with
  | after hheeds _ =>
    subst hp
    exact hkept hheeds
  | within hbefore hcomes hrest =>
    rcases of_bind_eq_call hp.symm with ⟨counted, -, heq⟩ | ⟨own, rfl, hnext⟩
    · exact hkept (heq ▸ hrest counted)
    · have hcomes' := Comes.snoc answer hcomes
      rw [List.append_assoc] at hcomes'
      rw [hnext]
      exact .within hbefore hcomes' hrest

end Program

end TraceWatch
