import TraceWatch.Service.Loop
import TraceWatch.Simulation.Script

/-!
# A simulated world

The service in a world of its own: a store, a scheduler lock, a clock that moves only when it is
told to, identifiers in a fixed order, and a workflow plane that answers as it was told. Every call
of a program is answered by `World.perform`, and every call of the workflow plane is recorded.
-/

namespace TraceWatch.Simulation

/-- The world of a simulation. -/
structure World where
  store : Store
  lockHeld : Bool
  /-- The clock, in nanoseconds since the start of 1970. -/
  clock : Int
  /-- The milliseconds by which the timers have moved. -/
  timer : Nat
  /-- The number of identifiers drawn. -/
  drawn : Nat
  /-- The calls of the workflow plane, the latest first. -/
  calls : List PlaneCall
  /-- The events counted, the latest first. -/
  events : List Counter
  resources : List (String × Json)
  defaultResource : Option Json
  logs : List (String × List LogLine)
  scripts : List Script
  /-- The milliseconds that pass within a submission. -/
  latency : Int
  template : String
  settings : SchedulerSettings
  /-- The number of tokens handed out. -/
  tokens : Nat
  /-- The tokens whose holders have been told to stop. -/
  cancelled : List Nat
  cycleToken : Option Nat
  shutdownToken : Option Nat
  loop : LoopSlot

namespace World

/-- A world at the start of a simulation. -/
def new (clock : Int) (latency : Int) (template : String) (settings : SchedulerSettings) : World :=
  { store := .empty, lockHeld := false, clock, timer := 0, drawn := 0, calls := [], events := [],
    resources := [], defaultResource := none, logs := [], scripts := [], latency, template,
    settings, tokens := 0, cancelled := [], cycleToken := none, shutdownToken := none,
    loop := none }

/-- The instant the clock shows. -/
def now (w : World) : Timestamp := .ofNanos w.clock

/-- Lets time pass on the clock alone. -/
def pass (w : World) (milliseconds : Int) : World :=
  { w with clock := w.clock + Timestamp.milliseconds milliseconds }

/-- The identifier drawn as the `n`-th. -/
def nthId (n : Nat) : Uuid :=
  let word (k : Nat) := (n * 0x9E3779B1 + k * 0x11111111) % Nat.pow 2 32
  .ofWords (word 0) (word 1) (word 2) (word 3)

/-- Hands out a token. -/
def newToken (w : World) : Nat × World := (w.tokens, { w with tokens := w.tokens + 1 })

/-- Tells the holder of a token to stop. -/
def cancel (w : World) (token : Option Nat) : World :=
  match token with
  | some token => { w with cancelled := token :: w.cancelled }
  | none => w

/-- Whether the holder of a token has been told to stop. -/
def isCancelled (w : World) (token : Nat) : Bool := w.cancelled.contains token

/-- Does something beside the operation under way. -/
def act (w : World) : Action → World
  | .suspend id => { w with store := (w.store.suspend id w.now).1 }
  | .resume id next => { w with store := (w.store.resume id next w.now).1 }
  | .advance id next => { w with store := (w.store.advance id next w.now).1 }
  | .delete id => { w with store := w.store.deleteMonitor id }
  | .insert m => { w with store := w.store.putMonitor m }
  | .cancel => w.cancel w.cycleToken
  | .shutdown => w.cancel w.shutdownToken
  | .passTime milliseconds => w.pass milliseconds

/-- Asks the scripts of one sort about a call. -/
def consult {α : Type} (w : World) (sort : Effect → Option α) (label : String) :
    Option α × World :=
  let (found, scripts) := Simulation.consult sort label w.scripts
  (found, { w with scripts })

/-- Lets the scripts of one sort act on a call. -/
def runScripts (w : World) (sort : Effect → Option (List Action)) (label : String) : World :=
  let (actions, w) := w.consult sort label
  (actions.getD []).foldl act w

/-- Makes a call under the scripts: what they do before it, then the error they have for it or
the call itself, and after the call itself what they do then. -/
def scripted {ε α : Type} (w : World) (label : String) (fault : Effect → Option ε)
    (body : World → Except ε α × World) : Except ε α × World :=
  let (found, w) := (w.runScripts Effect.before? label).consult fault label
  match found with
  | some e => (.error e, w)
  | none =>
    let (answer, w) := body w
    (answer, w.runScripts Effect.after? label)

/-- The resource set for a job, or else the one set for all jobs. -/
def resource (w : World) (job : JobRef) : Except PlaneError Json :=
  match (w.resources.find? (·.1 = job.name)).map Prod.snd <|> w.defaultResource with
  | some document => .ok document
  | none => .error (.notFound (job.kind ++ " " ++ job.space ++ "/" ++ job.name))

/-- What the workflow plane answers by itself. -/
def planeAnswer (w : World) : (c : PlaneCall) → Except PlaneError c.Answer
  | .submit spec => .ok (.run spec.space spec.name)
  | .delete _ => .ok ()
  | .resource job => w.resource job
  | .agent org project agent => .ok (org ++ "/" ++ project ++ "/" ++ agent)
  | .environment org environment => .ok (org ++ "/" ++ environment)
  | .logs _ jobName => .ok (((w.logs.find? (·.1 = jobName)).map Prod.snd).getD [])

/-- Records a call of the workflow plane; a submission takes its time. -/
def record (w : World) (c : PlaneCall) : World :=
  let recorded := { w with calls := c :: w.calls }
  match c with
  | .submit _ => recorded.pass w.latency
  | _ => recorded

/-- Takes the lock if it is free. -/
def takeLock (w : World) : Bool × World := (!w.lockHeld, { w with lockHeld := true })

/-- Frees the lock. -/
def freeLock (w : World) : World := { w with lockHeld := false }

/-- Answers a call of the holder of a token. -/
def perform (token : Nat) : (c : Call) → World → c.Answer × World
  | .now, w => (w.now, w)
  | .freshId, w => (nthId (w.drawn + 1), { w with drawn := w.drawn + 1 })
  | .cancelled, w => (w.isCancelled token, w)
  | .count event, w => ((), { w with events := event :: w.events })
  | .acquireLock, w =>
    w.scripted "lock.acquire" Effect.storeError? fun w =>
      let (taken, w) := w.takeLock
      (.ok taken, w)
  | .releaseLock, w =>
    let (answer, w) := w.scripted "lock.release" Effect.storeError? fun w => (.ok (), w.freeLock)
    (answer, w.freeLock)
  | .store c, w =>
    w.scripted (storeLabel c) Effect.storeError? fun w =>
      let (answer, store) := c.perform w.now w.store
      (answer, { w with store })
  | .plane c, w =>
    (w.record c).scripted (planeLabel c) Effect.planeError? fun w => (w.planeAnswer c, w)

/-- Runs an operation to its end. The answer is empty if it halts. -/
def run {α : Type} (w : World) (token : Nat) (operation : Operation α) :
    Option (Except MonitorError α) × World :=
  operation.run.run (perform token) w

/-- Runs an operation that nobody can tell to stop. -/
def runAlone {α : Type} (w : World) (operation : Operation α) :
    Option (Except MonitorError α) × World :=
  let (token, w) := w.newToken
  w.run token operation

/-- Runs a cycle that can be told to stop, or has been told before it begins. -/
def cycle (w : World) (cancelled : Bool) : Option (Except MonitorError CycleOutcome) × World :=
  let (token, w) := w.newToken
  let w := { w with cycleToken := some token }
  (if cancelled then w.cancel (some token) else w).run token (Service.cycle w.template)

/-- Runs the cycles of two schedulers that share the store and the lock. The second begins when the
first reaches its first submission, or else after it. -/
def cyclePair (w : World) :
    Option (Except MonitorError CycleOutcome) × Option (Except MonitorError CycleOutcome)
      × World :=
  let (token, w) := w.newToken
  let operation := Service.cycle w.template
  let isSubmission : Call → Bool
    | .plane (.submit _) => true
    | _ => false
  let (rest, w) := Program.runUntil (perform token) isSubmission operation.run w
  let (second, w) := w.runAlone operation
  let (first, w) := rest.run (perform token) w
  (first, second, w)

/-! ## The background loop -/

/-- Lets the loop do all it can do at this instant. A cycle that halts ends the loop and drops its
lock. -/
def settle (w : World) : World :=
  match w.loop with
  | none => w
  | some task =>
    match task.turn (w.isCancelled task.token) w.settings.period w.timer with
    | .waits => w
    | .ends => { w with loop := some { task with ended := true } }
    | .ticks task =>
      let (outcome, w) := w.run task.token (Service.cycle w.template)
      let w := if outcome.isNone then w.freeLock else w
      let ended := outcome.isNone || w.isCancelled task.token
      { w with loop := some { task with ended } }

/-- Starts the loop with a fresh token. -/
def startLoop (w : World) (cancelled : Bool) : Bool × World :=
  let (token, w) := w.newToken
  let w := { w with shutdownToken := some token }
  let w := if cancelled then w.cancel (some token) else w
  let (loop, started) := w.loop.start w.settings token w.timer
  (started, { w with loop })

/-- Stops the loop and waits until it has ended. -/
def stopLoop (w : World) : World := { w with loop := none }

/-- Tells the loop asked for last to stop. -/
def shutdown (w : World) : World := w.cancel w.shutdownToken

/-- Lets time pass on the clock and the timers, step by step, the loop doing what is due after each
step. -/
def sleep (w : World) (step : Nat) : Nat → World
  | 0 => w
  | n + 1 => sleep ({ w.pass step with timer := w.timer + step }.settle) step n

end World

end TraceWatch.Simulation
