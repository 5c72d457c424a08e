/-!
# Punycode

A row of characters written with ASCII letters and digits only: the ASCII characters first, then
a number for each other character, in the order of their numbers, that tells the distance to the
place where it is inserted. The numbers are written to base 36 with digits whose threshold
adapts to the size of the numbers before.
-/

namespace TraceWatch.Url.Punycode

/-- The character of a digit to base 36. -/
def digitChar (d : Nat) : Char :=
  if d < 26 then Char.ofNat ('a'.toNat + d) else Char.ofNat ('0'.toNat + (d - 26))

/-- The value of a digit to base 36. -/
def digitValue? (c : Char) : Option Nat :=
  if c.isDigit then some (c.toNat - '0'.toNat + 26)
  else if c.isLower then some (c.toNat - 'a'.toNat)
  else if c.isUpper then some (c.toNat - 'A'.toNat)
  else none

/-- The threshold of the digit at a place `k`, which counts up in steps of 36. A digit below it
is the last. -/
def threshold (k bias : Nat) : Nat :=
  if k ≤ bias then 1 else if bias + 26 ≤ k then 26 else k - bias

/-- Divides by 35 until the quotient is at most 455, and counts 36 for each division. -/
def scaleDown : Nat → Nat → Nat → Nat × Nat
  | 0, delta, k => (delta, k)
  | fuel + 1, delta, k =>
    if 455 < delta then scaleDown fuel (delta / 35) (k + 36) else (delta, k)

/-- The bias after a number `delta` that brought the count of characters to `count`. -/
def adapt (delta count : Nat) (first : Bool) : Nat :=
  let delta := if first then delta / 700 else delta / 2
  let delta := delta + delta / count
  let (delta, k) := scaleDown delta delta 0
  k + 36 * delta / (delta + 38)

/-- The digits of a number. Each division makes it smaller, so that the number itself bounds how
many there are. -/
def digits (bias : Nat) : Nat → Nat → Nat → List Char
  | 0, _, q => [digitChar q]
  | fuel + 1, k, q =>
    let t := threshold k bias
    if q < t then [digitChar q]
    else digitChar (t + (q - t) % (36 - t)) :: digits bias fuel (k + 36) ((q - t) / (36 - t))

/-- What has been written: the digits so far, the distance since the last insertion, the bias
and the number of characters written. -/
structure Writing where
  out : List Char
  delta : Nat
  bias : Nat
  written : Nat

/-- Passes one character of the text while those with the number `n` are written. `ascii` is the
count of ASCII characters. -/
def Writing.pass (ascii n : Nat) (w : Writing) (c : Char) : Writing :=
  if c.toNat < n then { w with delta := w.delta + 1 }
  else if c.toNat = n then
    { out := w.out ++ digits w.bias (w.delta + 1) 36 w.delta
      delta := 0
      bias := adapt w.delta (w.written + 1) (w.written = ascii)
      written := w.written + 1 }
  else w

/-- Writes the characters with the numbers `ns`, in rising order; `n` is the number after the
last one written. -/
def Writing.run (text : List Char) (ascii : Nat) : List Nat → Nat → Writing → Writing
  | [], _, w => w
  | m :: ns, n, w =>
    let w := { w with delta := w.delta + (m - n) * (w.written + 1) }
    let w := text.foldl (Writing.pass ascii m) w
    Writing.run text ascii ns (m + 1) { w with delta := w.delta + 1 }

/-- Writes a row of characters. -/
def encode (text : List Char) : List Char :=
  let ascii := text.filter (·.toNat < 0x80)
  let others := ((text.filter (0x80 ≤ ·.toNat)).map Char.toNat).eraseDups.mergeSort
  ascii ++ (if ascii.isEmpty then [] else ['-'])
    ++ (Writing.run text ascii.length others 0x80 ⟨[], 0, 72, ascii.length⟩).out

/-- Reads a number: `i` is its start and `w` the weight of the next digit. -/
def readNumber? (bias : Nat) : List Char → Nat → Nat → Nat → Option (Nat × List Char)
  | [], _, _, _ => none
  | c :: rest, k, w, i =>
    match digitValue? c with
    | none => none
    | some d =>
      let t := threshold k bias
      if d < t then some (i + d * w, rest)
      else readNumber? bias rest (k + 36) (w * (36 - t)) (i + d * w)

/-- Inserts the characters that the numbers stand for. Each number takes at least one digit. -/
def insertAll : Nat → Nat → Nat → Nat → List Char → List Char → Option (List Char)
  | _, _, _, _, out, [] => some out
  | 0, _, _, _, _, _ => none
  | fuel + 1, bias, n, i, out, rest =>
    match readNumber? bias rest 36 1 i with
    | none => none
    | some (j, rest) =>
      let count := out.length + 1
      let n := n + j / count
      if n.isValidChar then
        insertAll fuel (adapt (j - i) count (i = 0)) n (j % count + 1)
          (out.insertIdx (j % count) (Char.ofNat n)) rest
      else none

/-- Reads a row of characters. -/
def decode? (text : List Char) : Option (List Char) :=
  let tail := (text.reverse.takeWhile (· ≠ '-')).reverse
  let ascii := text.take (text.length - tail.length - 1)
  if ascii.all (·.toNat < 0x80) then insertAll text.length 72 0x80 0 ascii tail else none

end TraceWatch.Url.Punycode
