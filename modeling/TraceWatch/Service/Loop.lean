import TraceWatch.Service.Cycle
import TraceWatch.Config.Basic

/-!
# The background loop

A scheduler owns at most one loop task in its slot. The task runs a cycle at every tick; the first
tick comes at once, and a tick that comes late delays the ones after it. Before each tick the task
looks whether it has been told to stop. Time here is counted in milliseconds of a clock of its
own, which nothing sets.
-/

namespace TraceWatch

/-- How a scheduler is set up. -/
structure SchedulerSettings where
  enabled : Bool
  intervalSeconds : Nat
deriving DecidableEq, Repr

namespace SchedulerSettings

/-- The scheduler that a configuration describes. -/
def ofConfig (config : ServiceConfig) : SchedulerSettings :=
  ⟨config.scheduler.enabled, config.scheduler.pollIntervalSeconds⟩

/-- The time between two ticks, at least a second. -/
def period (settings : SchedulerSettings) : Nat := max settings.intervalSeconds 1 * 1000

end SchedulerSettings

/-- A loop task: the token that tells it to stop, its next tick, and whether it has ended. -/
structure LoopTask where
  token : Nat
  due : Nat
  ended : Bool
deriving DecidableEq, Repr

/-- What a loop task does that is not at a cycle. -/
inductive LoopTurn where
  /-- Nothing, until it is told to stop or a tick comes. -/
  | waits
  /-- It has been told to stop. -/
  | ends
  /-- A tick has come: it runs a cycle and is this task afterwards. -/
  | ticks (task : LoopTask)
deriving DecidableEq, Repr

namespace LoopTask

/-- A task whose first tick comes at once. -/
def new (token now : Nat) : LoopTask := ⟨token, now, false⟩

/-- A tick this late still counts as on time. -/
def tolerance : Nat := 5

/-- The task once the tick that was due has been taken. -/
def tick (task : LoopTask) (period now : Nat) : LoopTask :=
  { task with due := if task.due + tolerance < now then now + period else task.due + period }

/-- What the task does at a time, told to stop or not. -/
def turn (task : LoopTask) (told : Bool) (period now : Nat) : LoopTurn :=
  if task.ended then .waits
  else if told then .ends
  else if now < task.due then .waits
  else .ticks (task.tick period now)

end LoopTask

/-- The slot of a scheduler. A task that has ended may still be in it. -/
abbrev LoopSlot := Option LoopTask

namespace LoopSlot

/-- Whether a loop of the scheduler is alive. -/
def isRunning (slot : LoopSlot) : Bool := slot.any fun task => !task.ended

/-- Starts a loop, unless the scheduler is disabled or has one already. The second component tells
whether it did. -/
def start (slot : LoopSlot) (settings : SchedulerSettings) (token now : Nat) : LoopSlot × Bool :=
  if !settings.enabled || slot.isRunning then (slot, false)
  else (some (.new token now), true)

end LoopSlot

end TraceWatch
