import TraceWatch.Proofs.System.Moves

/-!
# Programs for which the clock stands still

While nobody else calls and the clock is not set, a task is told one instant whenever it looks at
the clock, and the store writes that instant as well. `Program.PlaysAt` is a play under these
conditions; `Site.AreMoves.playsAt` says that a history without ticks is one.
-/

namespace TraceWatch

/-- The move knows of no other instant: the clock shows it, and the store works at it. -/
def Move.IsAt (t : Timestamp) : Move → Prop
  | ⟨.now, answer, _, _⟩ => answer = t
  | ⟨.store c, answer, before, after⟩ => (answer, after) = c.perform t before
  | _ => True

namespace Program

variable {α β : Type}

/-- The program is carried out at one instant, from one store to another, and nobody else changes
the store meanwhile. -/
structure PlaysAt (t : Timestamp) (s : Store) (p : Program α) (moves : List Move) (v : α)
    (s' : Store) : Prop where
  plays : Plays p moves v
  row : Chained s moves s'
  still : ∀ move ∈ moves, move.IsAt t

namespace PlaysAt

variable {t : Timestamp} {s s' : Store} {moves : List Move} {v : α}

/-- A program at its end leaves the store as it is. -/
theorem of_done {v' : α} (h : PlaysAt t s (.done v) moves v' s') :
    moves = [] ∧ v' = v ∧ s' = s := by
  obtain ⟨rfl, rfl⟩ := h.plays.of_done
  exact ⟨rfl, rfl, h.row⟩

/-- The store answers at the instant. -/
theorem of_store {c : StoreCall} {next : Except StoreError c.Answer → Program α}
    (h : PlaysAt t s (.call (.store c) next) moves v s') :
    ∃ rest, moves = ⟨.store c, (c.perform t s).1, s, (c.perform t s).2⟩ :: rest ∧
      PlaysAt t (c.perform t s).2 (next (c.perform t s).1) rest v s' := by
  obtain ⟨now, rest, rfl, hplays, hrow⟩ := h.plays.of_store_row h.row
  have hat : c.perform now s = c.perform t s := h.still _ (.head _)
  rw [hat] at hplays hrow ⊢
  exact ⟨rest, rfl, hplays, hrow, fun move hmove => h.still move (.tail _ hmove)⟩

/-- The clock shows the instant. -/
theorem of_now {next : Timestamp → Program α} (h : PlaysAt t s (.call .now next) moves v s') :
    ∃ rest, moves = ⟨.now, t, s, s⟩ :: rest ∧ PlaysAt t s (next t) rest v s' := by
  obtain ⟨answer, rest, rfl, hplays, hrow⟩ := h.plays.of_idle_row h.row (by simp)
  obtain rfl : answer = t := h.still _ (.head _)
  exact ⟨rest, rfl, hplays, hrow, fun move hmove => h.still move (.tail _ hmove)⟩

/-- The workflow plane answers as it likes. -/
theorem of_plane {c : PlaneCall} {next : Except PlaneError c.Answer → Program α}
    (h : PlaysAt t s (.call (.plane c) next) moves v s') :
    ∃ answer rest, moves = ⟨.plane c, answer, s, s⟩ :: rest ∧
      PlaysAt t s (next answer) rest v s' := by
  obtain ⟨answer, rest, rfl, hplays, hrow⟩ := h.plays.of_idle_row h.row (by simp)
  exact ⟨answer, rest, rfl, hplays, hrow, fun move hmove => h.still move (.tail _ hmove)⟩

/-- One program is carried out after the other. -/
theorem of_bind {f : β → Program α} {p : Program β} (h : PlaysAt t s (p.bind f) moves v s') :
    ∃ first second w s₁, moves = first ++ second ∧ PlaysAt t s p first w s₁ ∧
      PlaysAt t s₁ (f w) second v s' := by
  obtain ⟨first, second, w, rfl, hfirst, hsecond⟩ := h.plays.of_bind
  obtain ⟨s₁, hrow₁, hrow₂⟩ := h.row.of_append
  exact ⟨first, second, w, s₁, rfl,
    ⟨hfirst, hrow₁, fun move hmove => h.still move (List.mem_append_left _ hmove)⟩,
    ⟨hsecond, hrow₂, fun move hmove => h.still move (List.mem_append_right _ hmove)⟩⟩

end PlaysAt

end Program

/-- An answer is given at the instant that the clock shows. -/
theorem Commons.Answers.isAt {w w' : Commons} {i : Nat} {c : Call} {answer : c.Answer}
    (h : w.Answers i c answer w') : Move.IsAt w.clock ⟨c, answer, w.store, w'.store⟩ := by
  cases c with
  | now => exact h.1
  | store d => exact Prod.ext h.1 (by rw [h.2])
  | _ => trivial

namespace Site

variable {s s' : Site} {es : List Event}

/-- The clock is not set in the history. -/
def StandsStill (es : List Event) : Prop := ∀ t, .tick t ∉ es

theorem StandsStill.of_append {es' : List Event} (h : StandsStill (es ++ es')) :
    StandsStill es := fun t ht => h t (List.mem_append_left _ ht)

/-- Only a tick sets the clock. -/
theorem Step.clock_eq {e : Event} (h : Step s e s') (he : ∀ t, e ≠ .tick t) :
    s'.commons.clock = s.commons.clock := by
  cases h with
  | tick w tasks t => exact absurd rfl (he t)
  | begins => rfl
  | call _ hw => exact hw.clock_eq
  | @drops w _ i => exact w.freeLock_clock i

theorem History.clock_eq (h : s.History es s') (hstill : StandsStill es) :
    s'.commons.clock = s.commons.clock := by
  induction h with
  | nil => rfl
  | snoc _ hstep ih =>
    rw [hstep.clock_eq fun t he => hstill t (by simp [he])]
    exact ih hstill.of_append

theorem Step.isAt {k : Nat} {a : Activity} {c : Call} {answer : c.Answer}
    (h : Step s (.call k a c answer) s') :
    Move.IsAt s.commons.clock ⟨c, answer, s.commons.store, s'.commons.store⟩ := by
  cases h with
  | call _ hw => exact hw.isAt

namespace AreMoves

variable {k : Nat} {a : Activity} {moves : List Move}

/-- While the clock stands still, a task is told the instant that it shows. -/
theorem isAt {rest : Program (Except MonitorError a.Result)} (h : AreMoves s s' es k a moves rest)
    (hstill : StandsStill es) : ∀ move ∈ moves, move.IsAt s.commons.clock := by
  intro move hmove
  obtain ⟨es₁, s₁, s₂, es₂, rfl, hbefore, hstep, -, hfrom, hto⟩ := h.comes move hmove
  rw [← hbefore.clock_eq hstill.of_append]
  have hat := Step.isAt hstep
  rwa [hfrom, hto] at hat

/-- A task that is left to itself while the clock stands still is carried out at the instant that
the clock shows. -/
theorem playsAt {result : Except MonitorError a.Result}
    (h : AreMoves s s' es k a moves (.done result)) (hstill : StandsStill es)
    (halone : ∀ e ∈ es, ∀ i, e.caller = some i → i = k) :
    Program.PlaysAt s.commons.clock s.commons.store a.operation.run moves result s'.commons.store :=
  ⟨h.leads.plays, h.chained halone, h.isAt hstill⟩

end AreMoves

end Site

end TraceWatch
