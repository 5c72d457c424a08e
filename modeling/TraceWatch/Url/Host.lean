import TraceWatch.Url.Basic
import TraceWatch.Url.Domain

/-!
# Hosts

A host is a domain name, an address of four numbers or, in square brackets, an address of eight
pieces. A name whose last label is a number has to be an address.
-/

namespace TraceWatch.Host

/-- A text without a full stop at its end. -/
def withoutLastStop (labels : List (List Char)) : List (List Char) :=
  if labels.length ≠ 1 ∧ labels.getLast? = some [] then labels.dropLast else labels

/-- The value of digits to a base. -/
def digitsTo? (base : Nat) (digits : List Char) : Option Nat :=
  digits.foldlM (fun value c =>
    match Text.hexValue? c with
    | some digit => if digit < base then some (value * base + digit) else none
    | none => none) 0

/-- A number of an address: to the base sixteen after `0x`, to the base eight after `0`. -/
def number? : List Char → Option Nat
  | [] => none
  | '0' :: 'x' :: digits => digitsTo? 16 digits
  | '0' :: 'X' :: digits => digitsTo? 16 digits
  | '0' :: c :: digits => digitsTo? 8 (c :: digits)
  | digits => digitsTo? 10 digits

/-- Whether the last label of a name is a number. -/
def endsInNumber (labels : List (List Char)) : Bool :=
  match (withoutLastStop labels).getLast? with
  | none => false
  | some last => (!last.isEmpty && last.all Char.isDigit) || (number? last).isSome

/-- The address that numbers make up: each but the last stands for one octet. -/
def address? (numbers : List Nat) : Option Nat :=
  match numbers.reverse with
  | [] => none
  | last :: others =>
    let count := others.length
    if 3 < count ∨ Nat.pow 256 (4 - count) ≤ last ∨ others.any (255 < ·) then none
    else
      let first := others.reverse.foldl (fun n octet => n * 256 + octet) 0
      some (last + first * Nat.pow 256 (4 - count))

/-- Reads the labels of an address of four numbers. -/
def ipv4? (labels : List (List Char)) : Option Host :=
  (((withoutLastStop labels).mapM number?).bind address?).map .ipv4

/-- The octets of the numbers at the end of an address of eight pieces: exactly four, written
without leading zeros. -/
def embedded? (labels : List (List Char)) : Option (List Nat) :=
  let octet? (digits : List Char) : Option Nat :=
    if digits.isEmpty ∨ (digits.length ≠ 1 ∧ digits.head? = some '0') then none
    else (digitsTo? 10 digits).bind fun n => if n ≤ 255 then some n else none
  match labels.mapM octet? with
  | some [a, b, c, d] => some [a * 256 + b, c * 256 + d]
  | _ => none

/-- A piece of up to four hexadecimal digits. -/
def piece? (digits : List Char) : Option Nat :=
  if digits.isEmpty ∨ 4 < digits.length then none else Text.hexNumber? digits

/-- A row of pieces with colons between them. If `atEnd`, the last may be four numbers. -/
def pieces? (atEnd : Bool) : List (List Char) → Option (List Nat)
  | [] => some []
  | [last] =>
    if atEnd && last.contains '.' then embedded? (Url.Domain.labels last)
    else (piece? last).map ([·])
  | digits :: rest => do
    let piece ← piece? digits
    return piece :: (← pieces? atEnd rest)

/-- The parts of a text between its colons. -/
def atColons (text : List Char) : List (List Char) := Text.parts (· = ':') text

/-- A text before and after its first `::`, if it has one. -/
def atDoubleColon : List Char → Option (List Char × List Char)
  | ':' :: ':' :: rest => some ([], rest)
  | [] => none
  | c :: rest => (atDoubleColon rest).map fun (before, after) => (c :: before, after)

/-- The pieces of a part that may be empty. -/
def side? (atEnd : Bool) (text : List Char) : Option (List Nat) :=
  if text.isEmpty then some [] else pieces? atEnd (atColons text)

/-- Reads an address of eight pieces. A `::` stands for as many zeros as are missing, at least
one. -/
def ipv6? (text : List Char) : Option Host :=
  match atDoubleColon text with
  | none => do
    let pieces ← pieces? true (atColons text)
    if pieces.length = 8 then return .ipv6 pieces else none
  | some (before, after) => do
    let first ← side? false before
    let last ← side? true after
    let missing := 8 - (first.length + last.length)
    if missing = 0 then none else return .ipv6 (first ++ List.replicate missing 0 ++ last)

/-- Reads an address in square brackets. -/
def bracketed (text : List Char) : Except UrlError Host :=
  match text.getLast?, ipv6? (text.drop 1).dropLast with
  | some ']', some host => .ok host
  | _, _ => .error .invalidIpv6

/-- Reads the host of a special scheme. Escapes in it are undone first. -/
def parse (text : List Char) : Except UrlError Host :=
  if text.head? = some '[' then bracketed text
  else
    match Url.Domain.ofOctets? (Text.percentDecode text) with
    | none => .error .invalidDomain
    | some domain =>
      if domain.isEmpty then .error .emptyHost
      else
        let labels := Url.Domain.labels domain
        if endsInNumber labels then
          match ipv4? labels with
          | some host => .ok host
          | none => .error .invalidIpv4
        else .ok (.name (String.ofList domain))

/-- The characters that the host of no scheme holds. -/
def isForbidden (c : Char) : Bool :=
  c = '\x00' || c = '\t' || c = '\n' || c = '\r' || c = ' ' || c = '#' || c = '/' || c = ':'
    || c = '<' || c = '>' || c = '?' || c = '@' || c = '[' || c = '\\' || c = ']' || c = '^'
    || c = '|'

/-- A control character. -/
def isControl (c : Char) : Bool := c.toNat < 0x20 || c.toNat = 0x7F

/-- Reads the host of another scheme. -/
def parseOther (text : List Char) : Except UrlError Host :=
  if text.head? = some '[' then bracketed text
  else if text.any isForbidden then .error .invalidHostCharacter
  else .ok (.name (String.ofList (Text.percentEncode isControl text)))

/-! ## The text of a host -/

/-- The place and the length of the longest row of at least two zeros, the first if several are
as long. `run` is the length of the row before place `i`. -/
def longestZeros (best : Nat × Nat) (i run : Nat) : List Nat → Nat × Nat
  | [] => best
  | piece :: rest =>
    let run := if piece = 0 then run + 1 else 0
    let best := if 2 ≤ run ∧ best.2 < run then (i + 1 - run, run) else best
    longestZeros best (i + 1) run rest

/-- Pieces with colons between them. -/
def renderPieces (pieces : List Nat) : String :=
  String.intercalate ":" (pieces.map fun piece => String.ofList (Nat.toDigits 16 piece))

/-- The text of a host. -/
def render : Host → String
  | .name text => text
  | .ipv4 address =>
    String.intercalate "." ([3, 2, 1, 0].map fun i => Nat.repr (address / Nat.pow 256 i % 256))
  | .ipv6 pieces =>
    let (start, count) := longestZeros (0, 0) 0 0 pieces
    if count = 0 then "[" ++ renderPieces pieces ++ "]"
    else
      "[" ++ renderPieces (pieces.take start) ++ "::" ++ renderPieces (pieces.drop (start + count))
        ++ "]"

end TraceWatch.Host
