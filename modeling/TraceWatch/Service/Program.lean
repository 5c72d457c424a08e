import TraceWatch.Job
import TraceWatch.Store.Call

/-!
# Programs of the service

An operation of the service is a program: a tree of calls to the world around it, each with its
continuation. A program says nothing about who answers its calls or what happens between two of
them, so that the same program can be run alone, against scripted answers, or interleaved with
others call by call.
-/

namespace TraceWatch

/-- A call of the workflow plane. -/
inductive PlaneCall where
  | submit (spec : JobSpec)
  | delete (job : JobRef)
  | resource (job : JobRef)
  | agent (org project agent : String)
  | environment (org environment : String)
  | logs (space jobName : String)
deriving DecidableEq, Repr

/-- The type of the answer of a call of the workflow plane. -/
@[reducible]
def PlaneCall.Answer : PlaneCall → Type
  | submit _ => JobRef
  | delete _ => Unit
  | resource _ => Json
  | agent _ _ _ | environment _ _ => String
  | logs _ _ => List LogLine

/-- How a scheduler cycle ended, for those who count. -/
inductive CycleEnd where
  | skipped
  | completed
  | failed
deriving DecidableEq, Repr

/-- An event that is counted. -/
inductive Counter where
  | runSubmitted
  | monitorTriggered
  | triggerFailed
  | cycleEnded (how : CycleEnd)
  | runMoved (status : RunStatus)
deriving DecidableEq, Repr

/-- A call to the world around the service. -/
inductive Call where
  /-- Reads the clock. -/
  | now
  /-- Draws a fresh identifier. -/
  | freshId
  /-- Whether the caller has been told to stop. -/
  | cancelled
  /-- Counts an event. -/
  | count (event : Counter)
  /-- Takes the scheduler lock, unless somebody holds it. -/
  | acquireLock
  /-- Gives the scheduler lock back. -/
  | releaseLock
  | store (c : StoreCall)
  | plane (c : PlaneCall)

/-- The type of a call's answer. -/
@[reducible]
def Call.Answer : Call → Type
  | now => Timestamp
  | freshId => Uuid
  | cancelled => Bool
  | count _ => Unit
  | acquireLock => Except StoreError Bool
  | releaseLock => Except StoreError Unit
  | store c => Except StoreError c.Answer
  | plane c => Except PlaneError c.Answer

/-- A program that ends with a value of type `α`. It halts without one if a computation leaves
the calendar. -/
inductive Program (α : Type) where
  | done (value : α)
  | halt
  | call (c : Call) (next : c.Answer → Program α)

namespace Program

variable {α β : Type}

/-- Goes on with the value of a program. -/
def bind : Program α → (α → Program β) → Program β
  | done value, f => f value
  | halt, _ => halt
  | call c next, f => call c fun answer => bind (next answer) f

instance : Monad Program where
  pure := done
  bind := bind

/-- Makes a call. -/
def ask (c : Call) : Program c.Answer := call c done

/-- Runs a program to its end, every call answered by `perform`. -/
def run {W : Type} (perform : (c : Call) → W → c.Answer × W) : Program α → W → Option α × W
  | done value, w => (some value, w)
  | halt, w => (none, w)
  | call c next, w =>
    let (answer, w) := perform c w
    run perform (next answer) w

/-- Runs a program up to its first call that `stop` tells; the rest of it starts with that
call. -/
def runUntil {W : Type} (perform : (c : Call) → W → c.Answer × W) (stop : Call → Bool) :
    Program α → W → Program α × W
  | done value, w => (done value, w)
  | halt, w => (halt, w)
  | call c next, w =>
    if stop c then (call c next, w)
    else
      let (answer, w) := perform c w
      runUntil perform stop (next answer) w

/-- Reads the clock. -/
def now : Program Timestamp := ask .now

/-- Draws a fresh identifier. -/
def freshId : Program Uuid := ask .freshId

/-- Whether the caller has been told to stop. -/
def cancelled : Program Bool := ask .cancelled

/-- Counts an event. -/
def count (event : Counter) : Program Unit := ask (.count event)

/-- Calls the store. -/
def store (c : StoreCall) : Program (Except StoreError c.Answer) := ask (.store c)

/-- Calls the workflow plane. -/
def plane (c : PlaneCall) : Program (Except PlaneError c.Answer) := ask (.plane c)

end Program

/-- A program that may fail. -/
abbrev Operation (α : Type) := ExceptT MonitorError Program α

namespace Operation

/-- Calls the store and fails if the call does. -/
def store (c : StoreCall) : Operation c.Answer :=
  ExceptT.mk ((Program.store c).bind fun r => .done (r.mapError .store))

/-- Calls the workflow plane and fails if the call does. -/
def plane (c : PlaneCall) : Operation c.Answer :=
  ExceptT.mk ((Program.plane c).bind fun r => .done (r.mapError .plane))

/-- Runs an operation and answers with what came of it, a failure included. -/
def attempt {α : Type} (operation : Operation α) : Operation (Except MonitorError α) :=
  ExceptT.mk (operation.run.bind fun r => .done (.ok r))

/-- Fails if a rule is broken. -/
def check (result : Except Violation Unit) : Operation Unit :=
  ExceptT.mk (.done (result.mapError .validation))

end Operation

end TraceWatch
