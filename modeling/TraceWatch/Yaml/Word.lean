import TraceWatch.Number.Layout
import TraceWatch.Text.Hexadecimal

/-!
# What a plain word means

The words for null, truth values and numbers. A number may have a sign and be written to the
bases ten, sixteen (`0x`), eight (`0o`) and two (`0b`); a row of decimal digits that starts with
a zero is no number.
-/

namespace TraceWatch.Yaml.Word

/-- Whether a word means null. -/
def isNull (word : String) : Bool :=
  word = "null" || word = "Null" || word = "NULL" || word = "~"

/-- The truth value of a word. -/
def bool? (word : String) : Option Bool :=
  if word = "true" ∨ word = "True" ∨ word = "TRUE" then some true
  else if word = "false" ∨ word = "False" ∨ word = "FALSE" then some false
  else none

/-- A word without its sign, if it has one. -/
def withoutSign : List Char → List Char
  | '+' :: rest => rest
  | '-' :: rest => rest
  | word => word

/-- Whether a word is a row of at least two decimal digits, the first of them a zero, perhaps
after a sign. -/
def isZeroPadded (word : List Char) : Bool :=
  match withoutSign word with
  | '0' :: c :: rest => (c :: rest).all Char.isDigit
  | _ => false

/-- The number that a row of digits makes up to a base. -/
def magnitude? (base : Nat) (digits : List Char) : Option Nat :=
  if digits.isEmpty then none
  else digits.foldlM (fun value c =>
    match Text.hexValue? c with
    | some digit => if digit < base then some (value * base + digit) else none
    | none => none) 0

/-- The base that a mark after a leading zero stands for. -/
def base? : Char → Option Nat
  | 'x' => some 16
  | 'o' => some 8
  | 'b' => some 2
  | _ => none

/-- The number of a word without a sign. -/
def unsignedMagnitude? (word : List Char) : Option Nat :=
  match word with
  | '0' :: mark :: digits =>
    match base? mark with
    | some base => magnitude? base digits
    | none => if isZeroPadded word then none else magnitude? 10 word
  | _ => magnitude? 10 word

/-- The whole number that a word means: one with or without a sign. -/
def integer? (word : List Char) : Option Int :=
  match word with
  | '-' :: rest => (unsignedMagnitude? rest).map fun n => -(n : Int)
  | '+' :: rest => (unsignedMagnitude? rest).map fun n => (n : Int)
  | _ => (unsignedMagnitude? word).map fun n => (n : Int)

/-- The number that a word without a minus sign means. -/
def natural? (word : List Char) : Option Nat :=
  match word with
  | '-' :: _ => none
  | '+' :: rest => unsignedMagnitude? rest
  | _ => unsignedMagnitude? word

/-- Whether a word means a number with a fraction or an exponent, an infinite number or none. -/
def isReal (word : List Char) : Bool :=
  let text := String.ofList word
  let unsigned := match word with
    | '+' :: rest => rest
    | _ => word
  let plain := String.ofList unsigned
  if word.head? = some '+' && (unsigned.head? = some '+' || unsigned.head? = some '-') then false
  else
    plain = ".inf" || plain = ".Inf" || plain = ".INF" || text = "-.inf" || text = "-.Inf"
      || text = "-.INF" || text = ".nan" || text = ".NaN" || text = ".NAN"
      || (Binary64.parse? plain).any Binary64.isFinite

/-- Whether a whole number has a size that is told apart from a text. -/
def isSized (i : Int) : Bool := -Int.ofNat (Nat.pow 2 127) ≤ i && i < Int.ofNat (Nat.pow 2 128)

/-- Whether a plain word would read as something else than a text. -/
def isSpecial (text : String) : Bool :=
  let word := text.toList
  word.isEmpty || isNull text || (bool? text).isSome || (integer? word).any isSized
    || isZeroPadded word || isReal word

end TraceWatch.Yaml.Word
