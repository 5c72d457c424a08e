import TraceWatch.Number.Binary64

/-!
# The shortest decimal that reads back

`Shortest.digits` finds, for a positive number `m · 2 ^ e` of the 64-bit format, the decimal
with the fewest digits that the format rounds to that very number, and of several such decimals
the nearest. The search is exact: every comparison is one of whole numbers.
-/

namespace TraceWatch

/-- A positive decimal `digits · 10 ^ exponent`. -/
structure Decimal where
  digits : Nat
  exponent : Int
deriving DecidableEq, Repr

namespace Decimal

/-- Moves trailing zeros of the digits into the exponent; at most `fuel` of them. -/
def trim : Nat → Decimal → Decimal
  | 0, d => d
  | fuel + 1, d =>
    if d.digits ≠ 0 ∧ d.digits % 10 = 0 then trim fuel ⟨d.digits / 10, d.exponent + 1⟩ else d

end Decimal

namespace Shortest

/-- The greatest `k` with `10 ^ k ≤ num / den`. -/
def decimalExponent (num den : Nat) : Int :=
  let low : Int := ((num.log2 : Int) - den.log2 - 1) * 30103 / 100000
  let next := low + 1
  if den * Nat.pow 10 next.toNat ≤ num * Nat.pow 10 (-next).toNat then next else low

/-- The reals that the format rounds to `mantissa · 2 ^ exponent`, in quarters of the last bit:
from the first component to the second, both included exactly for an even mantissa. The gap below
a power of two is half as wide. -/
def quarters (mantissa : Nat) (exponent : Int) : Nat × Nat :=
  let narrow := mantissa = Nat.pow 2 52 ∧ Binary64.minExponent < exponent
  (4 * mantissa - (if narrow then 1 else 2), 4 * mantissa + 2)

/-- Whether the format reads `d` as `mantissa · 2 ^ exponent`. -/
def readsBack (mantissa : Nat) (exponent : Int) (d : Decimal) : Bool :=
  let unit := exponent - 2
  let value := d.digits * Nat.pow 10 d.exponent.toNat * Nat.pow 2 (-unit).toNat
  let scale := Nat.pow 10 (-d.exponent).toNat * Nat.pow 2 unit.toNat
  let (low, high) := quarters mantissa exponent
  if mantissa % 2 = 0 then low * scale ≤ value && value ≤ high * scale
  else low * scale < value && value < high * scale

/-- The better of the two neighbours of `num / den` among the multiples of `10 ^ exponent`,
if either reads back: the nearer, and the even one of two equally near. -/
def onGrid (mantissa : Nat) (exponent : Int) (num den : Nat) (grid : Int) : Option Decimal :=
  let top := num * Nat.pow 10 (-grid).toNat
  let bottom := den * Nat.pow 10 grid.toNat
  let floor := top / bottom
  let below : Decimal := ⟨floor, grid⟩
  let above : Decimal := ⟨floor + 1, grid⟩
  let double := 2 * (top % bottom)
  let upward := bottom < double ∨ (double = bottom ∧ floor % 2 = 1)
  match readsBack mantissa exponent below, readsBack mantissa exponent above with
  | true, true => some (if upward then above else below)
  | true, false => some below
  | false, true => some above
  | false, false => none

/-- The first grid, from coarse to fine, on which a neighbour reads back. -/
def search (mantissa : Nat) (exponent : Int) (num den : Nat) (lead : Int) : Nat → Nat → Decimal
  | 0, _ => ⟨num / den, 0⟩
  | fuel + 1, width =>
    match onGrid mantissa exponent num den (lead - width) with
    | some d => d.trim 20
    | none => search mantissa exponent num den lead fuel (width + 1)

/-- The shortest decimal that reads back as `mantissa · 2 ^ exponent`, for a positive mantissa.
Seventeen digits are always enough. -/
def decimal (mantissa : Nat) (exponent : Int) : Decimal :=
  let num := mantissa * Nat.pow 2 exponent.toNat
  let den := Nat.pow 2 (-exponent).toNat
  search mantissa exponent num den (decimalExponent num den) 18 0

end Shortest

end TraceWatch
