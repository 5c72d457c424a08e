/-!
# Binary numbers of 64 bits

The numbers of the 64-bit binary floating-point format, as data: a sign, a whole mantissa and a
power of two. `Binary64.ofRatio` rounds an exact quotient to the nearest of them, the even
mantissa winning a tie; every other way to make such a number goes through it. Nothing here
uses the machine's own floating-point type, so that all of it can be reasoned about.
-/

namespace TraceWatch

/-- A number of the 64-bit binary format. `finite s m e` stands for `± m · 2 ^ e`. -/
inductive Binary64 where
  | finite (negative : Bool) (mantissa : Nat) (exponent : Int)
  | infinite (negative : Bool)
  | nan
deriving DecidableEq, Repr

namespace Binary64

/-- The exponent of the smallest positive number of the format. -/
def minExponent : Int := -1074

/-- The exponent that goes with the largest finite numbers of the format. -/
def maxExponent : Int := 971

/-- Zero, of either sign. -/
def zero (negative : Bool) : Binary64 := .finite negative 0 minExponent

/-- The nearest whole number to `num / den`, and of two equally near the even one. -/
def roundQuotient (num den : Nat) : Nat :=
  let quotient := num / den
  let double := 2 * (num % den)
  if den < double ∨ (double = den ∧ quotient % 2 = 1) then quotient + 1 else quotient

/-- The power of two of the last mantissa bit of a number near `num / den`: it leaves a
mantissa of 53 bits, unless that would go below the smallest exponent. -/
def unitExponent (num den : Nat) : Int :=
  let low : Int := (num.log2 : Int) - den.log2 - 53
  let fits := num * Nat.pow 2 (-low).toNat < Nat.pow 2 53 * den * Nat.pow 2 low.toNat
  max (if fits then low else low + 1) minExponent

/-- The number of the format nearest to `± num / den`; too large a quotient is infinite. -/
def ofRatio (negative : Bool) (num den : Nat) : Binary64 :=
  if num = 0 then zero negative else
    let unit := unitExponent num den
    let mantissa := roundQuotient (num * Nat.pow 2 (-unit).toNat) (den * Nat.pow 2 unit.toNat)
    let carried := mantissa = Nat.pow 2 53
    let exponent := if carried then unit + 1 else unit
    if maxExponent < exponent then .infinite negative
    else .finite negative (if carried then Nat.pow 2 52 else mantissa) exponent

/-- The number nearest to a whole number. -/
def ofNat (n : Nat) : Binary64 := ofRatio false n 1

/-- The number nearest to a whole number. -/
def ofInt (i : Int) : Binary64 := ofRatio (i < 0) i.natAbs 1

/-- The count of decimal digits of a whole number, none for zero. -/
def digitCount (n : Nat) : Nat := if n = 0 then 0 else (Nat.toDigits 10 n).length

/-- The number nearest to `± significand · 10 ^ exponent`. Exponents far outside the range of
the format are answered without computing the power. -/
def ofDecimal (negative : Bool) (significand : Nat) (exponent : Int) : Binary64 :=
  let magnitude := exponent + digitCount significand
  if significand = 0 ∨ magnitude < -400 then zero negative
  else if 400 < magnitude then .infinite negative
  else ofRatio negative (significand * Nat.pow 10 exponent.toNat) (Nat.pow 10 (-exponent).toNat)

/-- The sign of a number, for those that have one. -/
def isNegative : Binary64 → Bool
  | .finite negative _ _ => negative
  | .infinite negative => negative
  | .nan => false

/-- The number with the other sign. -/
def neg : Binary64 → Binary64
  | .finite negative mantissa exponent => .finite (!negative) mantissa exponent
  | .infinite negative => .infinite (!negative)
  | .nan => .nan

/-- Numbers other than the infinite ones and the one that is no number. -/
def isFinite : Binary64 → Bool
  | .finite _ _ _ => true
  | _ => false

/-- The product, rounded, of two finite numbers. -/
def mul : Binary64 → Binary64 → Binary64
  | .finite s m e, .finite t n f =>
    let scale := e + f
    ofRatio (s != t) (m * n * Nat.pow 2 scale.toNat) (Nat.pow 2 (-scale).toNat)
  | .infinite s, y => .infinite (s != y.isNegative)
  | x, .infinite t => .infinite (x.isNegative != t)
  | _, _ => .nan

/-- The quotient, rounded, of a finite number by a finite one other than zero. -/
def div : Binary64 → Binary64 → Binary64
  | .finite s m e, .finite t n f =>
    let scale := e - f
    if n = 0 then .nan
    else ofRatio (s != t) (m * Nat.pow 2 scale.toNat) (n * Nat.pow 2 (-scale).toNat)
  | .infinite s, y => .infinite (s != y.isNegative)
  | .finite s _ _, .infinite t => zero (s != t)
  | _, _ => .nan

/-- Whether a number is zero, of either sign. -/
def isZero : Binary64 → Bool
  | .finite _ mantissa _ => mantissa = 0
  | _ => false

/-- Whether a number is above zero. -/
def isPositive : Binary64 → Bool
  | .finite negative mantissa _ => !negative && mantissa != 0
  | .infinite negative => !negative
  | .nan => false

/-- Whether a number is at most one. -/
def isAtMostOne : Binary64 → Bool
  | .finite negative mantissa exponent =>
    negative || mantissa * Nat.pow 2 exponent.toNat ≤ Nat.pow 2 (-exponent).toNat
  | .infinite negative => negative
  | .nan => false

end Binary64

end TraceWatch
