import TraceWatch.Proofs.Program.Laws

/-!
# Plays of one program

A play of a program is what happens while it is carried out: its calls in order, each with its
answer and with the store right before and right after it. Between two calls the store may have been
changed by others, in any way; a play says nothing about that, so a statement about all plays holds
whatever else goes on. Outside the store every answer is possible.
-/

namespace TraceWatch

/-- A call of a program, and its answer. -/
abbrev Exchange := (c : Call) × c.Answer

/-- A call of a program that has been answered, and the store before and after it. -/
structure Move where
  call : Call
  answer : call.Answer
  before : Store
  after : Store

namespace Move

/-- The store answers as it is bound to, at some instant; no other call touches it. -/
def IsSound : Move → Prop
  | ⟨.store c, answer, before, after⟩ => ∃ now, (answer, after) = c.perform now before
  | ⟨_, _, before, after⟩ => after = before

/-- A call of the workflow plane and its answer. -/
abbrev OfPlane := (c : PlaneCall) × Except PlaneError c.Answer

/-- The call of the workflow plane that a move is, if it is one. -/
def plane? : Move → Option OfPlane
  | ⟨.plane c, answer, _, _⟩ => some ⟨c, answer⟩
  | _ => none

/-- The move leaves the store as it is. -/
def IsIdle (move : Move) : Prop := move.after = move.before

/-- A call that only reads is an idle move. -/
theorem IsSound.idle_of_isRead {move : Move} (h : move.IsSound) (hread : move.call.isRead = true) :
    move.IsIdle := by
  obtain ⟨c, answer, before, after⟩ := move
  cases c with
  | store c =>
    obtain ⟨now, heq⟩ := h
    have hafter : after = (c.perform now before).2 := congrArg Prod.snd heq
    exact hafter.trans (StoreCall.perform_of_isRead hread now before)
  | _ => exact h

end Move

/-- The calls of the workflow plane among moves, in order, with their answers. -/
def planeMoves (moves : List Move) : List Move.OfPlane := moves.filterMap Move.plane?

theorem planeMoves_cons_none {move : Move} {moves : List Move} (h : move.plane? = none) :
    planeMoves (move :: moves) = planeMoves moves := List.filterMap_cons_none h

theorem planeMoves_append (first second : List Move) :
    planeMoves (first ++ second) = planeMoves first ++ planeMoves second :=
  List.filterMap_append

/-- No move changes the store. -/
def AllIdle (moves : List Move) : Prop := ∀ move ∈ moves, move.IsIdle

@[simp] theorem allIdle_nil : AllIdle [] := List.forall_mem_nil _

@[simp] theorem allIdle_cons {move : Move} {moves : List Move} :
    AllIdle (move :: moves) ↔ move.IsIdle ∧ AllIdle moves := List.forall_mem_cons

namespace Program

variable {α β : Type}

/-- The moves carry the program from its beginning to its end, where it has this value. -/
inductive Plays : Program α → List Move → α → Prop
  | done (v : α) : Plays (.done v) [] v
  | call {c : Call} {next : c.Answer → Program α} {answer : c.Answer} {before after : Store}
    {moves : List Move} {v : α} :
    Move.IsSound ⟨c, answer, before, after⟩ → Plays (next answer) moves v →
      Plays (.call c next) (⟨c, answer, before, after⟩ :: moves) v

/-- Whatever its calls are answered, the program comes to an end with a value. -/
def Returns : Program α → Prop
  | done _ => True
  | halt => False
  | call _ next => ∀ answer, Returns (next answer)

/-- A program that comes to an end and goes on with one that does comes to an end. -/
theorem Returns.bind {f : α → Program β} (hf : ∀ v, (f v).Returns) :
    ∀ {p : Program α}, p.Returns → (p.bind f).Returns
  | .done v, _ => hf v
  | .call _ _, h => fun answer => (h answer).bind hf

/-- If the program halts, whatever its calls have been answered, then that is so. -/
def HaltsOnlyIf (P : Prop) : Program α → Prop
  | done _ => True
  | halt => P
  | call _ next => ∀ answer, HaltsOnlyIf P (next answer)

theorem HaltsOnlyIf.mono {P Q : Prop} (hPQ : P → Q) :
    ∀ {p : Program α}, p.HaltsOnlyIf P → p.HaltsOnlyIf Q
  | .done _, _ => trivial
  | .halt, h => hPQ h
  | .call _ _, h => fun answer => (h answer).mono hPQ

theorem HaltsOnlyIf.bind {P : Prop} {f : α → Program β} (hf : ∀ v, (f v).HaltsOnlyIf P) :
    ∀ {p : Program α}, p.HaltsOnlyIf P → (p.bind f).HaltsOnlyIf P
  | .done v, _ => hf v
  | .halt, h => h
  | .call _ _, h => fun answer => (h answer).bind hf

/-- A program that comes to an end does not halt. -/
theorem Returns.haltsOnlyIf {P : Prop} : ∀ {p : Program α}, p.Returns → p.HaltsOnlyIf P
  | .done _, _ => trivial
  | .call _ _, h => fun answer => (h answer).haltsOnlyIf

/-- Whatever its calls are answered, the program makes calls of one sort only, and the value that it
comes to, if it comes to one, is of another sort. -/
def Keeps (P : Call → Prop) (Q : α → Prop) : Program α → Prop
  | done v => Q v
  | halt => True
  | call c next => P c ∧ ∀ answer, Keeps P Q (next answer)

section

variable {P P' : Call → Prop} {Q Q' : α → Prop}

theorem Keeps.mono (hP : ∀ c, P c → P' c) (hQ : ∀ v, Q v → Q' v) :
    ∀ {p : Program α}, p.Keeps P Q → p.Keeps P' Q'
  | .done v, h => hQ v h
  | .halt, _ => trivial
  | .call c _, h => ⟨hP c h.1, fun answer => (h.2 answer).mono hP hQ⟩

theorem Keeps.bind {R : β → Prop} {f : α → Program β} (hf : ∀ v, Q v → (f v).Keeps P R) :
    ∀ {p : Program α}, p.Keeps P Q → (p.bind f).Keeps P R
  | .done v, h => hf v h
  | .halt, _ => trivial
  | .call _ _, h => ⟨h.1, fun answer => (h.2 answer).bind hf⟩

/-- A run ends with a value of the sort, if it ends with one. -/
theorem Keeps.run {W : Type} {perform : (c : Call) → W → c.Answer × W} :
    ∀ {p : Program α} {w w' : W} {v : α}, p.Keeps P Q → p.run perform w = (some v, w') → Q v
  | .done _, _, _, _, h, heq => by
    cases heq
    exact h
  | .halt, _, _, _, _, heq => by cases heq
  | .call _ _, _, _, _, h, heq => (h.2 _).run heq

end

/-- A program at its end plays no further move. -/
theorem Plays.of_done {v v' : α} {moves : List Move} (h : Plays (.done v) moves v') :
    moves = [] ∧ v' = v := by
  cases h
  exact ⟨rfl, rfl⟩

/-- A program that calls plays that call first. -/
theorem Plays.of_call {c : Call} {next : c.Answer → Program α} {moves : List Move} {v : α}
    (h : Plays (.call c next) moves v) :
    ∃ answer before after rest, moves = ⟨c, answer, before, after⟩ :: rest ∧
      Move.IsSound ⟨c, answer, before, after⟩ ∧ Plays (next answer) rest v := by
  cases h with
  | call hsound hrest => exact ⟨_, _, _, _, rfl, hsound, hrest⟩

/-- A play of one program and then another is a play of the one followed by a play of the other. -/
theorem Plays.of_bind {f : α → Program β} : ∀ {p : Program α} {moves : List Move} {w : β},
    Plays (p.bind f) moves w →
      ∃ first second v, moves = first ++ second ∧ Plays p first v ∧ Plays (f v) second w
  | .done v, moves, _, h => ⟨[], moves, v, rfl, .done v, h⟩
  | .call c next, _, _, h => by
    obtain ⟨answer, before, after, rest, rfl, hsound, hrest⟩ := h.of_call
    obtain ⟨first, second, v, rfl, hfirst, hsecond⟩ := hrest.of_bind
    exact ⟨_ :: first, second, v, rfl, .call hsound hfirst, hsecond⟩

/-- The store answers every move of a play as it is bound to. -/
theorem Plays.isSound {p : Program α} {moves : List Move} {v : α} (h : Plays p moves v) :
    ∀ move ∈ moves, move.IsSound := by
  induction h with
  | done => exact List.forall_mem_nil _
  | call hsound _ ih => exact List.forall_mem_cons.2 ⟨hsound, ih⟩

/-- Whatever its calls are answered, each call that the program makes has the property. -/
def Makes (P : Call → Prop) : Program α → Prop
  | done _ => True
  | halt => True
  | call c next => P c ∧ ∀ answer, Makes P (next answer)

/-- The moves of a program are calls that it makes. -/
theorem Makes.of_plays {P : Call → Prop} : ∀ {p : Program α} {moves : List Move} {v : α},
    p.Makes P → Plays p moves v → ∀ move ∈ moves, P move.call
  | .done _, _, _, _, h => by
    rw [h.of_done.1]
    exact List.forall_mem_nil _
  | .call _ _, _, _, hp, h => by
    obtain ⟨answer, before, after, rest, rfl, -, hrest⟩ := h.of_call
    exact List.forall_mem_cons.2 ⟨hp.1, (hp.2 answer).of_plays hrest⟩

/-- A program that only reads makes reading calls. -/
theorem ReadsOnly.makes : ∀ {p : Program α}, p.ReadsOnly → p.Makes fun c => c.isRead = true
  | .done _, _ => trivial
  | .call _ _, h => ⟨h.1, fun answer => (h.2 answer).makes⟩

/-- A program that only reads comes to an end. -/
theorem ReadsOnly.returns : ∀ {p : Program α}, p.ReadsOnly → p.Returns
  | .done _, _ => trivial
  | .call _ _, h => fun answer => (h.2 answer).returns

/-- A program that only reads plays idle moves. -/
theorem ReadsOnly.allIdle : ∀ {p : Program α} {moves : List Move} {v : α},
    p.ReadsOnly → Plays p moves v → AllIdle moves
  | .done _, _, _, _, h => by
    rw [h.of_done.1]
    exact allIdle_nil
  | .call _ _, _, _, hp, h => by
    obtain ⟨answer, before, after, rest, rfl, hsound, hrest⟩ := h.of_call
    exact allIdle_cons.2 ⟨hsound.idle_of_isRead hp.1, (hp.2 answer).allIdle hrest⟩

end Program

end TraceWatch
