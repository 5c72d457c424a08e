import TraceWatch.Failure
import TraceWatch.Time.Timestamp

/-!
# Trace windows

A run evaluates the traces of a window. The window of a scheduled run starts one interval before
the instant the run was due and ends a safety margin before now, so that traces still on their
way are left for the next run; the next run is due one interval after that end. Starting from the
due instant makes the windows of successive runs meet, however late a run is picked up.
-/

namespace TraceWatch

/-- A stretch of trace time. -/
structure Window where
  start : Timestamp
  stop : Timestamp
deriving DecidableEq, Repr

/-- The window of a scheduled run and the instant the next one is due. -/
structure Plan where
  window : Window
  nextRun : Timestamp
deriving DecidableEq, Repr

namespace Plan

/-- The share of an interval that is held back from the end of a window, in percent. -/
def marginPercent : Int := 5

/-- The safety margin of an interval, in minutes: its share, rounded up to whole minutes. -/
def marginMinutes (interval : Int) : Int := (max interval 0 * marginPercent + 99) / 100

/-- The plan for a monitor due at `nextRun` with the given interval in minutes. The outer option is
empty if one of its instants lies outside the calendar. -/
def make (nextRun : Option Timestamp) (interval : Option Int) (now : Timestamp) :
    Except WindowError (Option Plan) :=
  match interval, nextRun with
  | none, _ => .error .missingInterval
  | some _, none => .error .missingNextRun
  | some interval, some nextRun =>
    if interval ≤ 0 then .error (.invalidInterval interval) else .ok do
      let stop ← now.add? (-Timestamp.minutes (marginMinutes interval))
      let start ← nextRun.add? (-Timestamp.minutes interval)
      let next ← stop.truncate.add? (Timestamp.minutes interval)
      some ⟨⟨start.truncate, stop.truncate⟩, next⟩

end Plan

end TraceWatch
