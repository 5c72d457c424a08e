import TraceWatch.Time.Timestamp
import TraceWatch.Text.Blank

/-!
# The text of an instant

`Timestamp.render` writes an instant in universal time with as many groups of three fraction
digits as it needs, `Timestamp.renderSeconds` without its fraction. `Timestamp.parse?` reads a
relaxed form of the same format: blanks are allowed between the parts, fields may be short, and
the offset may be written in several ways.
-/

namespace TraceWatch.Timestamp

/-! ## Writing -/

/-- A whole number with at least `width` digits. -/
def padded (width n : Nat) : String :=
  let digits := Nat.repr n
  String.ofList (List.replicate (width - digits.length) '0') ++ digits

/-- A year: four digits, or a sign and at least four. -/
def renderYear (year : Int) : String :=
  if 0 ≤ year ∧ year ≤ 9999 then padded 4 year.toNat
  else (if year < 0 then "-" else "+") ++ padded 4 year.natAbs

/-- The fraction of a second in the fewest groups of three digits that lose nothing. -/
def renderFraction (nanos : Nat) : String :=
  if nanos = 0 then ""
  else if nanos % 1000000 = 0 then "." ++ padded 3 (nanos / 1000000)
  else if nanos % 1000 = 0 then "." ++ padded 6 (nanos / 1000)
  else "." ++ padded 9 nanos

/-- Writes an instant with the given text of its fraction. -/
def renderWith (t : Timestamp) (fraction : String) : String :=
  let date := Date.ofDays (t.second / secondsPerDay)
  let ofDay := (t.second % secondsPerDay).toNat
  let second := ofDay % 60 + (if t.isLeap then 1 else 0)
  renderYear date.year ++ "-" ++ padded 2 date.month.toNat ++ "-" ++ padded 2 date.day.toNat
    ++ "T" ++ padded 2 (ofDay / 3600) ++ ":" ++ padded 2 (ofDay / 60 % 60)
    ++ ":" ++ padded 2 second ++ fraction ++ "Z"

/-- The text of an instant. -/
def render (t : Timestamp) : String := t.renderWith (renderFraction (t.nano % nanosPerSecond))

/-- The text of the second an instant lies in. -/
def renderSeconds (t : Timestamp) : String := t.renderWith ""

/-! ## Reading -/

/-- The value of a row of decimal digits. -/
def digitsValue (digits : List Char) : Nat :=
  digits.foldl (fun value c => value * 10 + (c.toNat - '0'.toNat)) 0

/-- The digits at the start of a text, at most `width` of them, and what follows. -/
def takeDigits : Nat → List Char → List Char × List Char
  | 0, rest => ([], rest)
  | _ + 1, [] => ([], [])
  | width + 1, c :: rest =>
    if c.isDigit then
      let (digits, tail) := takeDigits width rest
      (c :: digits, tail)
    else ([], c :: rest)

/-- A number of one to `width` digits at the start of a text. -/
def number? (width : Nat) (text : List Char) : Option (Nat × List Char) :=
  let (digits, rest) := takeDigits width text
  if digits.isEmpty then none else some (digitsValue digits, rest)

/-- A number after blanks, of at most two digits and within bounds. -/
def field? (low high : Nat) (text : List Char) : Option (Nat × List Char) := do
  let (n, rest) ← number? 2 (Text.trimStart text)
  if low ≤ n ∧ n ≤ high then some (n, rest) else none

/-- A character after blanks. -/
def mark? (mark : Char) (text : List Char) : Option (List Char) :=
  match Text.trimStart text with
  | c :: rest => if c = mark then some rest else none
  | [] => none

/-- A year after blanks: up to four digits, or a sign and any number of them. -/
def year? (text : List Char) : Option (Int × List Char) :=
  match Text.trimStart text with
  | '-' :: rest => (number? rest.length rest).map fun (n, tail) => (-(n : Int), tail)
  | '+' :: rest => (number? rest.length rest).map fun (n, tail) => ((n : Int), tail)
  | rest => (number? 4 rest).map fun (n, tail) => ((n : Int), tail)

/-- A fraction in nanoseconds; digits after the ninth are dropped. -/
def fraction? : List Char → Option (Nat × List Char)
  | '.' :: rest =>
    let (digits, tail) := takeDigits 9 rest
    if digits.isEmpty then none
    else some (digitsValue digits * Nat.pow 10 (9 - digits.length), tail.dropWhile Char.isDigit)
  | rest => some (0, rest)

/-- Two digits of an offset, each within its bound. -/
def offsetPair? (tens : Char) : List Char → Option (Nat × List Char)
  | a :: b :: rest =>
    if a.isDigit ∧ a ≤ tens ∧ b.isDigit then some (digitsValue [a, b], rest) else none
  | _ => none

/-- Hours and minutes of an offset, with or without colons and blanks between them, in seconds. -/
def hoursMinutes? (text : List Char) : Option (Int × List Char) := do
  let (hours, rest) ← offsetPair? '9' text
  let rest := rest.dropWhile fun c => c = ':' || Text.isBlankChar c
  let (minutes, rest) ← offsetPair? '5' rest
  some (hours * 3600 + minutes * 60, rest)

/-- The offset from universal time, in seconds. -/
def offset? : List Char → Option (Int × List Char)
  | '+' :: rest => hoursMinutes? rest
  | '-' :: rest => (hoursMinutes? rest).map fun (n, tail) => (-n, tail)
  | '−' :: rest => (hoursMinutes? rest).map fun (n, tail) => (-n, tail)
  | 'Z' :: rest => some (0, rest)
  | 'z' :: rest => some (0, rest)
  | u :: t :: c :: rest =>
    if u.toLower = 'u' ∧ t.toLower = 't' ∧ c.toLower = 'c' then some (0, rest) else none
  | _ => none

/-- The separator of date and time. -/
def separator? : List Char → Option (List Char)
  | c :: rest => if c = 'T' ∨ c = 't' ∨ c = ' ' then some rest else none
  | [] => none

/-- Reads an instant. Second 60 of any minute is read as a leap second. -/
def parse? (text : String) : Option Timestamp := do
  let (year, rest) ← year? text.toList
  let rest ← mark? '-' rest
  let (month, rest) ← field? 1 12 rest
  let rest ← mark? '-' rest
  let (day, rest) ← field? 1 31 rest
  let rest ← separator? rest
  let (hour, rest) ← field? 0 23 rest
  let rest ← mark? ':' rest
  let (minute, rest) ← field? 0 59 rest
  let rest ← mark? ':' rest
  let (second, rest) ← field? 0 60 rest
  let (nanos, rest) ← fraction? rest
  let (offset, rest) ← offset? (Text.trimStart rest)
  let date : Date := ⟨year, month, day⟩
  let leap := second = 60
  let ofDay : Int := hour * 3600 + minute * 60 + (if leap then 59 else second)
  let universal := date.toDays * secondsPerDay + ofDay - offset
  if (Text.trimStart rest).isEmpty ∧ date.isValid ∧ offset.natAbs < 86400
      ∧ Date.minYear ≤ year ∧ year ≤ Date.maxYear ∧ inCalendar universal then
    some ⟨universal, if leap then nanos + nanosPerSecond else nanos⟩
  else none

end TraceWatch.Timestamp
