import TraceWatch.Text.Hexadecimal

/-!
# Universally unique identifiers

An identifier is 128 bits. It is written as 32 hexadecimal digits in five groups; it is read from
that form in either case, also without hyphens, in braces, or as a name of the `uuid` namespace.
-/

namespace TraceWatch

/-- A universally unique identifier. -/
structure Uuid where
  bits : BitVec 128
deriving DecidableEq, Repr

namespace Uuid

/-- The 32 hexadecimal digits of an identifier. -/
def digits (id : Uuid) : List Char :=
  (List.range 32).map fun i => Text.hexDigit (id.bits.toNat / Nat.pow 16 (31 - i))

/-- The text of an identifier. -/
def render (id : Uuid) : String :=
  let ds := id.digits
  String.ofList (ds.take 8 ++ '-' :: (ds.drop 8).take 4 ++ '-' :: (ds.drop 12).take 4
    ++ '-' :: (ds.drop 16).take 4 ++ '-' :: ds.drop 20)

/-- The first eight digits of an identifier. -/
def short (id : Uuid) : String := String.ofList (id.digits.take 8)

/-- The identifier with these 32 digits. -/
def ofDigits? (cs : List Char) : Option Uuid :=
  if cs.length = 32 then
    (Text.hexNumber? cs).map fun value => ⟨BitVec.ofNat 128 value⟩
  else none

/-- The identifier with 32 digits in five groups. -/
def ofGroups? (cs : List Char) : Option Uuid :=
  if cs.length = 36 ∧ cs[8]? = some '-' ∧ cs[13]? = some '-' ∧ cs[18]? = some '-'
      ∧ cs[23]? = some '-' then
    ofDigits? (cs.take 8 ++ (cs.drop 9).take 4 ++ (cs.drop 14).take 4 ++ (cs.drop 19).take 4
      ++ cs.drop 24)
  else none

/-- Reads an identifier. -/
def parse? (text : String) : Option Uuid :=
  let cs := text.toList
  match cs with
  | '\x7b' :: rest => if rest.getLast? = some '\x7d' then ofGroups? rest.dropLast else none
  | 'u' :: 'r' :: 'n' :: ':' :: 'u' :: 'u' :: 'i' :: 'd' :: ':' :: rest => ofGroups? rest
  | cs => if cs.length = 32 then ofDigits? cs else ofGroups? cs

/-- The identifier made of four words of 32 bits, marked as a random one: version 4 of the usual
variant. -/
def ofWords (a b c d : Nat) : Uuid :=
  let whole := ((a * Nat.pow 2 32 + b) * Nat.pow 2 32 + c) * Nat.pow 2 32 + d
  let bits := BitVec.ofNat 128 whole
  let version := BitVec.ofNat 128 (0xF * Nat.pow 2 76)
  let variant := BitVec.ofNat 128 (0xC * Nat.pow 2 60)
  ⟨(bits &&& ~~~(version ||| variant)) ||| BitVec.ofNat 128 (4 * Nat.pow 2 76)
    ||| BitVec.ofNat 128 (8 * Nat.pow 2 60)⟩

end Uuid

end TraceWatch
