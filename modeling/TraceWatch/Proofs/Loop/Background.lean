import TraceWatch.Proofs.Lock.Turns
import TraceWatch.Proofs.Program.Plays
import TraceWatch.Service.Loop

/-!
# A scheduler in the background

A scheduler works at a site through loops, of which each runs one cycle after the other as a task of
the site. `Background.Step` lets one thing happen: something at the site that no loop of the
scheduler does, time passing, a token being cancelled, a request to start or to stop the loop or to
tell whether it runs, or a move of a loop. Nothing is said about whose turn it is, so
`Background.History` ranges over every order of these. Only requests wait for each other: while one
to stop waits for its loop to end, there is no other.
-/

namespace TraceWatch

/-- A loop of a scheduler. -/
structure BackgroundLoop where
  task : LoopTask
  /-- It has been told to stop by a request. -/
  told : Bool
  /-- The tasks of the site that are its cycles, the latest first. -/
  cycles : List Nat

namespace BackgroundLoop

variable {l : BackgroundLoop} {k : Nat}

def IsAlive (l : BackgroundLoop) : Prop := l.task.ended = false

instance : Decidable l.IsAlive := inferInstanceAs (Decidable (_ = _))

/-- It has no cycle, or its latest has returned. -/
def IsIdle (l : BackgroundLoop) (s : Site) : Prop :=
  ∀ k, l.cycles.head? = some k →
    ∃ task result, s.tasks[k]? = some task ∧ task.rest = .done result

theorem isIdle_of_nil (h : l.cycles = []) (s : Site) : l.IsIdle s := fun k hk => by
  rw [h] at hk
  cases hk

/-- It is alive, and this is its latest cycle. -/
structure IsAt (l : BackgroundLoop) (k : Nat) : Prop where
  alive : l.IsAlive
  head : l.cycles.head? = some k

/-- The loop after it has ended. -/
def finish (l : BackgroundLoop) : BackgroundLoop := { l with task := { l.task with ended := true } }

theorem not_isAlive_finish : ¬ l.finish.IsAlive := fun h => Bool.false_ne_true (Eq.symm h)

/-- The loop after it has been told to stop. -/
def tell (l : BackgroundLoop) : BackgroundLoop := { l with told := true }

end BackgroundLoop

/-- A scheduler and the site at which it works. -/
structure Background where
  settings : SchedulerSettings
  template : String
  site : Site
  /-- The time that has passed, in milliseconds. -/
  timer : Nat
  /-- The tokens that have been cancelled. -/
  cancelled : List Nat
  /-- The loops, in the order in which they were started. -/
  loops : List BackgroundLoop
  /-- The loop in the slot. -/
  slot : Option Nat
  /-- The loop for whose end a request to stop is waiting. -/
  awaited : Option Nat

/-- A move of a loop. -/
inductive LoopMove where
  /-- It begins a cycle. -/
  | ticks
  /-- A call of its cycle is answered. -/
  | works (c : Call) (answer : c.Answer)
  /-- Its cycle has left the calendar, and it ends with it. -/
  | breaks
  /-- It ends, as it has been told. -/
  | ends

/-- Something that happens to a scheduler or where it works. -/
inductive Happening where
  /-- Something at the site that no loop does. -/
  | elsewhere (e : Event)
  /-- Time passes. -/
  | passes (milliseconds : Nat)
  | cancels (token : Nat)
  /-- A request to start a loop with a token, and its answer. -/
  | starts (token : Nat) (answer : Bool)
  /-- A request to tell whether a loop runs, and its answer. -/
  | asks (answer : Bool)
  /-- A request to stop the loop. It returns at once if the slot is empty. -/
  | stops
  /-- The request to stop that has been waiting returns. -/
  | stopped
  | loop (i : Nat) (move : LoopMove)

namespace Background

/-- A loop has been told to stop, by a request or by its token. -/
def isTold (b : Background) (l : BackgroundLoop) : Bool :=
  l.told || b.cancelled.contains l.task.token

/-- What a loop does that is not at a cycle. -/
def turn (b : Background) (l : BackgroundLoop) : LoopTurn :=
  l.task.turn (b.isTold l) b.settings.period b.timer

/-- The task in the slot. -/
def view (b : Background) : LoopSlot := b.slot.bind fun i => b.loops[i]?.map BackgroundLoop.task

/-- The scheduler after a request to start a loop. -/
def start (b : Background) (token : Nat) : Background :=
  match b.view.start b.settings token b.timer with
  | (some task, true) =>
    { b with loops := b.loops ++ [⟨task, false, []⟩], slot := some b.loops.length }
  | _ => b

/-- The answer to a request to start a loop. -/
def starts (b : Background) (token : Nat) : Bool :=
  (b.view.start b.settings token b.timer).2

/-- The scheduler after a request to stop the loop. -/
def stop (b : Background) : Background :=
  { b with
    loops := match b.slot with
      | some i => b.loops.modify i BackgroundLoop.tell
      | none => b.loops
    slot := none
    awaited := b.slot }

/-- A loop of the scheduler is alive. -/
def IsAlive (b : Background) : Prop := ∃ l ∈ b.loops, l.IsAlive

/-- The task is a cycle of a loop of the scheduler. -/
def Owns (b : Background) (k : Nat) : Prop := ∃ l ∈ b.loops, k ∈ l.cycles

/-- A loop moves: what it is afterwards, and the site. -/
inductive Moves (b : Background) (l : BackgroundLoop) :
    LoopMove → Site → BackgroundLoop → Prop
  | ticks {s : Site} {task : LoopTask} : l.IsIdle b.site → b.turn l = .ticks task →
    b.site.RoughStep (.begins (.cycle b.template)) s →
      Moves b l .ticks s ⟨task, l.told, b.site.tasks.length :: l.cycles⟩
  | works {s : Site} {k : Nat} {c : Call} {answer : c.Answer} : l.IsAt k →
    b.site.RoughStep (.call k (.cycle b.template) c answer) s →
      (∀ told, (⟨c, answer⟩ : Exchange) = ⟨.cancelled, told⟩ → told = b.isTold l) →
        Moves b l (.works c answer) s l
  | breaks {s : Site} {k : Nat} : l.IsAt k → b.site.RoughStep (.drops k) s →
    Moves b l .breaks s l.finish
  | ends : l.IsIdle b.site → b.turn l = .ends → Moves b l .ends b.site l.finish

/-- One thing happens. -/
inductive Step (b : Background) : Happening → Background → Prop
  | elsewhere {e : Event} {s : Site} : (∀ k, e.actor = some k → ¬ b.Owns k) →
    b.site.RoughStep e s → Step b (.elsewhere e) { b with site := s }
  | passes (milliseconds : Nat) :
    Step b (.passes milliseconds) { b with timer := b.timer + milliseconds }
  | cancels (token : Nat) :
    Step b (.cancels token) { b with cancelled := token :: b.cancelled }
  | starts (token : Nat) : b.awaited = none →
    Step b (.starts token (b.starts token)) (b.start token)
  | asks : b.awaited = none → Step b (.asks b.view.isRunning) b
  | stops : b.awaited = none → Step b .stops b.stop
  | stopped {i : Nat} {l : BackgroundLoop} : b.awaited = some i → b.loops[i]? = some l →
    ¬ l.IsAlive → Step b .stopped { b with awaited := none }
  | loop {i : Nat} {l l' : BackgroundLoop} {move : LoopMove} {s : Site} : b.loops[i]? = some l →
    b.Moves l move s l' →
      Step b (.loop i move) { b with site := s, loops := b.loops.set i l' }

/-- One thing after the other happens, the latest last. -/
inductive History (b : Background) : List Happening → Background → Prop
  | nil : History b [] b
  | snoc {hs : List Happening} {h : Happening} {b' b'' : Background} :
    History b hs b' → Step b' h b'' → History b (hs ++ [h]) b''

/-- No loop has been started, and at the site no task has begun. -/
structure IsFresh (b : Background) : Prop where
  loops : b.loops = []
  slot : b.slot = none
  awaited : b.awaited = none
  site : b.site.IsIdle

/-- An infinite history. -/
structure Course where
  at' : Nat → Background
  happening : Nat → Happening
  step : ∀ n, (at' n).Step (happening n) (at' (n + 1))

/-- A loop is at a cycle that has not returned, or it is its turn. -/
def IsReady (b : Background) (l : BackgroundLoop) : Prop :=
  l.IsAlive ∧ (l.IsIdle b.site → b.turn l ≠ .waits)

/-- Nobody waits for ever: a loop that is ready moves at some time, and so does a request to stop
return whose loop has ended. -/
structure Course.IsFair (c : Course) : Prop where
  moves : ∀ n i l, (c.at' n).loops[i]? = some l → (c.at' n).IsReady l →
    ∃ m, n ≤ m ∧ ∃ move, c.happening m = .loop i move
  returns : ∀ n i l, (c.at' n).awaited = some i → (c.at' n).loops[i]? = some l → ¬ l.IsAlive →
    ∃ m, n ≤ m ∧ c.happening m = .stopped

end Background

end TraceWatch
