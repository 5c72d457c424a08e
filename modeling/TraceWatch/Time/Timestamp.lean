import TraceWatch.Time.Calendar

/-!
# Instants

An instant is a whole second of the day count and a part of it in nanoseconds. A part of a second
or more marks a leap second: the instant lies in second 60, which shares its number with second 59.
Moving an instant is defined only inside the calendar, from year -262143 to year 262142.
-/

namespace TraceWatch

/-- An instant: seconds since the start of 1970 and nanoseconds, at least `10 ^ 9` of them in a leap
second. -/
structure Timestamp where
  second : Int
  nano : Nat
deriving DecidableEq, Repr

namespace Timestamp

/-- The nanoseconds of a second. -/
def nanosPerSecond : Nat := 1000000000

/-- The seconds of a day. -/
def secondsPerDay : Int := 86400

/-- Whether the instant lies in a leap second. -/
def isLeap (t : Timestamp) : Bool := nanosPerSecond ≤ t.nano

instance : LT Timestamp where
  lt a b := a.second < b.second ∨ (a.second = b.second ∧ a.nano < b.nano)

instance : LE Timestamp where
  le a b := a.second < b.second ∨ (a.second = b.second ∧ a.nano ≤ b.nano)

theorem lt_def (a b : Timestamp) :
    a < b ↔ a.second < b.second ∨ (a.second = b.second ∧ a.nano < b.nano) := Iff.rfl

theorem le_def (a b : Timestamp) :
    a ≤ b ↔ a.second < b.second ∨ (a.second = b.second ∧ a.nano ≤ b.nano) := Iff.rfl

instance (a b : Timestamp) : Decidable (a < b) := decidable_of_iff _ (lt_def a b).symm

instance (a b : Timestamp) : Decidable (a ≤ b) := decidable_of_iff _ (le_def a b).symm

/-- Whether a second lies in the calendar. -/
def inCalendar (second : Int) : Bool :=
  Date.minDays * secondsPerDay ≤ second && second < (Date.maxDays + 1) * secondsPerDay

/-- The instant so many nanoseconds since the start of 1970, outside leap seconds. -/
def ofNanos (nanos : Int) : Timestamp :=
  ⟨nanos / nanosPerSecond, (nanos % nanosPerSecond).toNat⟩

/-- The instant `delta` nanoseconds later, wherever that lies. A move that stays in a leap second
keeps it; one that leaves it goes on from second 59 forwards and from the next second backwards. -/
def move (t : Timestamp) (delta : Int) : Timestamp :=
  let plain := t.second * nanosPerSecond + t.nano + delta
  if t.isLeap then
    if 2 * (nanosPerSecond : Int) ≤ t.nano + delta then ofNanos (plain - nanosPerSecond)
    else if delta ≤ -(nanosPerSecond : Int) then ofNanos plain
    else ⟨t.second, (t.nano + delta).toNat⟩
  else ofNanos plain

/-- The instant `delta` nanoseconds later, if the calendar has it. -/
def add? (t : Timestamp) (delta : Int) : Option Timestamp :=
  let moved := t.move delta
  if inCalendar moved.second then some moved else none

/-- So many minutes, in nanoseconds. -/
def minutes (n : Int) : Int := n * 60 * nanosPerSecond

/-- So many milliseconds, in nanoseconds. -/
def milliseconds (n : Int) : Int := n * 1000000

/-- The instant cut to a whole second, which may be a leap second. -/
def truncate (t : Timestamp) : Timestamp :=
  ⟨t.second, if t.isLeap then nanosPerSecond else 0⟩

/-- Whether the instant is a whole second. -/
def IsWhole (t : Timestamp) : Prop := t.truncate = t

instance (t : Timestamp) : Decidable t.IsWhole := inferInstanceAs (Decidable (_ = _))

end Timestamp

end TraceWatch
