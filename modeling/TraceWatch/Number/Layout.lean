import TraceWatch.Number.Shortest

/-!
# The text of a number

A `Layout` fixes how the shortest decimal of a number is spelt: for which magnitudes it is
written in full, and whether a whole number keeps a fraction. `Binary64.parse?` reads the text
of a number in any of the usual spellings.
-/

namespace TraceWatch

/-- How the decimal of a number is spelt. -/
structure Layout where
  /-- Whether a number whose leading digit stands for `10 ^ e` is written without exponent. -/
  positional : Int → Bool
  /-- Whether a whole number written without exponent ends in `.0`. -/
  keepsFraction : Bool

namespace Layout

/-- Numbers in documents: an exponent below `10 ^ -5` and from `10 ^ 16` on. -/
def document : Layout := ⟨fun e => -5 ≤ e && e < 16, true⟩

/-- Numbers in messages are always written in full. -/
def message : Layout := ⟨fun _ => true, false⟩

/-- A row of zeros. -/
def zeros (n : Int) : String := String.ofList (List.replicate n.toNat '0')

/-- Writes a decimal in full. -/
def inFull (keepsFraction : Bool) (d : Decimal) : String :=
  let digits := (Nat.repr d.digits).toList
  let point : Int := digits.length + d.exponent
  if 0 ≤ d.exponent then
    Nat.repr d.digits ++ zeros d.exponent ++ (if keepsFraction then ".0" else "")
  else if 0 < point then
    String.ofList (digits.take point.toNat) ++ "." ++ String.ofList (digits.drop point.toNat)
  else "0." ++ zeros (-point) ++ Nat.repr d.digits

/-- Writes a decimal with one digit before the point and an exponent. -/
def scientific (d : Decimal) : String :=
  let digits := (Nat.repr d.digits).toList
  let lead := digits.length - 1 + d.exponent
  let fraction := digits.drop 1
  String.ofList (digits.take 1) ++ (if fraction.isEmpty then "" else "." ++ String.ofList fraction)
    ++ (if lead < 0 then "e-" else "e+") ++ Nat.repr lead.natAbs

/-- The text of a number. -/
def render (layout : Layout) : Binary64 → String
  | .nan => "NaN"
  | .infinite negative => if negative then "-inf" else "inf"
  | .finite negative mantissa exponent =>
    let sign := if negative then "-" else ""
    if mantissa = 0 then sign ++ (if layout.keepsFraction then "0.0" else "0") else
      let d := Shortest.decimal mantissa exponent
      let lead : Int := ((Nat.repr d.digits).length : Int) - 1 + d.exponent
      sign ++ (if layout.positional lead then inFull layout.keepsFraction d else scientific d)

end Layout

namespace Binary64

/-- The value of a row of decimal digits. -/
def digitsValue (digits : List Char) : Nat :=
  digits.foldl (fun value c => value * 10 + (c.toNat - '0'.toNat)) 0

/-- An exponent as written after its mark: an optional sign and at least one digit. -/
def readExponent? : List Char → Option Int
  | '-' :: digits => if !digits.isEmpty && digits.all Char.isDigit
      then some (-(digitsValue digits : Int)) else none
  | '+' :: digits => if !digits.isEmpty && digits.all Char.isDigit
      then some (digitsValue digits) else none
  | digits => if !digits.isEmpty && digits.all Char.isDigit
      then some (digitsValue digits) else none

/-- A number without its sign: a word for an infinite number or for none, or digits with at most
one point among them and an optional exponent. -/
def readMagnitude? (negative : Bool) (text : List Char) : Option Binary64 :=
  let word := String.ofList (text.map Char.toLower)
  if word = "inf" ∨ word = "infinity" then some (.infinite negative)
  else if word = "nan" then some .nan
  else
    let whole := text.takeWhile Char.isDigit
    let afterWhole := text.dropWhile Char.isDigit
    let (fraction, afterFraction) := match afterWhole with
      | '.' :: rest => (rest.takeWhile Char.isDigit, rest.dropWhile Char.isDigit)
      | rest => ([], rest)
    if whole.isEmpty && fraction.isEmpty then none else
      let significand := digitsValue (whole ++ fraction)
      let shift : Int := -(fraction.length : Int)
      match afterFraction with
      | [] => some (ofDecimal negative significand shift)
      | c :: rest =>
        if c = 'e' ∨ c = 'E' then
          (readExponent? rest).map fun e => ofDecimal negative significand (e + shift)
        else none

/-- Reads the text of a number: the nearest number of the format to the decimal written. -/
def parse? (text : String) : Option Binary64 :=
  match text.toList with
  | '-' :: rest => readMagnitude? true rest
  | '+' :: rest => readMagnitude? false rest
  | rest => readMagnitude? false rest

end Binary64

end TraceWatch
