import TraceWatch.Text.Hexadecimal

/-!
# The octets of a text

A character is stored as one to four octets. `decode?` reads a row of octets back and refuses one
that no text is stored as. `percentDecode` reads `%` with two hexadecimal digits as an octet.
-/

namespace TraceWatch.Text

/-- The octets of a character. -/
def octets (c : Char) : List Nat :=
  let n := c.toNat
  if n < 0x80 then [n]
  else if n < 0x800 then [0xC0 + n / 0x40, 0x80 + n % 0x40]
  else if n < 0x10000 then [0xE0 + n / 0x1000, 0x80 + n / 0x40 % 0x40, 0x80 + n % 0x40]
  else [0xF0 + n / 0x40000, 0x80 + n / 0x1000 % 0x40, 0x80 + n / 0x40 % 0x40, 0x80 + n % 0x40]

/-- Whether an octet continues a character. -/
def isContinuation (octet : Nat) : Bool := 0x80 ≤ octet && octet < 0xC0

/-- Reads on in a row of octets. Of the character that has been begun, `due` octets are still to
come; `value` is what the others say, and `least` the smallest number that takes as many
octets. -/
def decodeFrom? (due value least : Nat) : List Nat → Option (List Char)
  | [] => if due = 0 then some [] else none
  | octet :: rest =>
    if due = 0 then
      if octet < 0x80 then (decodeFrom? 0 0 0 rest).map (Char.ofNat octet :: ·)
      else if octet < 0xC0 then none
      else if octet < 0xE0 then decodeFrom? 1 (octet - 0xC0) 0x80 rest
      else if octet < 0xF0 then decodeFrom? 2 (octet - 0xE0) 0x800 rest
      else if octet < 0xF8 then decodeFrom? 3 (octet - 0xF0) 0x10000 rest
      else none
    else if isContinuation octet then
      let value := value * 0x40 + (octet - 0x80)
      if due = 1 then
        if least ≤ value ∧ value.isValidChar then
          (decodeFrom? 0 0 0 rest).map (Char.ofNat value :: ·)
        else none
      else decodeFrom? (due - 1) value least rest
    else none

/-- The text that a row of octets stores. -/
def decode? (octets : List Nat) : Option (List Char) := decodeFrom? 0 0 0 octets

/-- Whether an octet may come second after a given first one. -/
def mayFollow (first second : Nat) : Bool :=
  isContinuation second && (first ≠ 0xE0 || 0xA0 ≤ second) && (first ≠ 0xED || second < 0xA0)
    && (first ≠ 0xF0 || 0x90 ≤ second) && (first ≠ 0xF4 || second < 0x90)

/-- How many octets a character has, by its first one. -/
def width? (first : Nat) : Option Nat :=
  if first < 0x80 then some 1
  else if 0xC2 ≤ first ∧ first < 0xE0 then some 2
  else if 0xE0 ≤ first ∧ first < 0xF0 then some 3
  else if 0xF0 ≤ first ∧ first < 0xF5 then some 4
  else none

/-- Where a row of octets stops being a text, and how many octets are wrong there, unless they are
only too few. A character has been begun at `place` with the octet `first`, of which `found` octets
have been read and `due` are to come. -/
def faultFrom? (place first found due : Nat) : List Nat → Option (Nat × Option Nat)
  | [] => if due = 0 then none else some (place, none)
  | octet :: rest =>
    if due = 0 then
      match width? octet with
      | none => some (place + found, some 1)
      | some width => faultFrom? (place + found) octet 1 (width - 1) rest
    else if if found = 1 then mayFollow first octet else isContinuation octet then
      faultFrom? place first (found + 1) (due - 1) rest
    else some (place, some found)

/-- Where a row of octets stops being a text, and how many octets are wrong there, unless they are
only too few. -/
def fault? (octets : List Nat) : Option (Nat × Option Nat) := faultFrom? 0 0 0 0 octets

/-- The octets of a text, with `%` and two hexadecimal digits read as one octet. -/
def percentDecode : List Char → List Nat
  | [] => []
  | '%' :: a :: b :: rest =>
    match hexNumber? [a, b] with
    | some octet => octet :: percentDecode rest
    | none => '%'.toNat :: percentDecode (a :: b :: rest)
  | c :: rest => octets c ++ percentDecode rest

/-- An octet as `%` and two hexadecimal digits. -/
def percentOctet (octet : Nat) : List Char :=
  ['%', upperHexDigit (octet / 16), upperHexDigit octet]

/-- A text in which the ASCII characters that satisfy `escapes` and all others outside ASCII are
written as `%` and two hexadecimal digits for each octet. -/
def percentEncode (escapes : Char → Bool) (text : List Char) : List Char :=
  text.flatMap fun c =>
    if 0x80 ≤ c.toNat || escapes c then (octets c).flatMap percentOctet else [c]

end TraceWatch.Text
