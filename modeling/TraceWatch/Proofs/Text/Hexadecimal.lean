import Mathlib.Algebra.Group.Nat.Defs
import TraceWatch.Text.Hexadecimal

/-!
# Hexadecimal digits read back

A digit is read as the value it was written for, and a row of digits as the number whose last digits
they are.
-/

namespace TraceWatch.Text

/-- A character that is none of the sixteen digits. -/
theorem hexDigit_ne {c : Char} (hdigits : ∀ x < 16, Nat.digitChar x ≠ c) (n : Nat) :
    hexDigit n ≠ c := hdigits _ (Nat.mod_lt _ (by decide))

/-- A hexadecimal digit is read as the value it was written for. -/
theorem hexValue?_hexDigit (n : Nat) : hexValue? (hexDigit n) = some (n % 16) := by
  have hdigits : ∀ k < 16, hexValue? (Nat.digitChar k) = some k := by decide
  exact hdigits _ (Nat.mod_lt _ (by decide))

/-- A hexadecimal digit in upper case is read as the value it was written for. -/
theorem hexValue?_upperHexDigit (n : Nat) : hexValue? (upperHexDigit n) = some (n % 16) := by
  have hdigits : ∀ k < 16, hexValue? (Nat.digitChar k).toUpper = some k := by decide
  exact hdigits _ (Nat.mod_lt _ (by decide))

/-- A row of digits, in either case, is read as the number whose last digits they are. -/
theorem hexNumber?_digits {write : Nat → Char}
    (hwrite : ∀ n, hexValue? (write n) = some (n % 16)) : ∀ k n : Nat,
    hexNumber? ((List.range k).map fun i => write (n / 16 ^ (k - 1 - i))) = some (n % 16 ^ k)
  | 0, n => by rw [Nat.pow_zero, Nat.mod_one]; rfl
  | k + 1, n => by
    have hlast : n / 16 % 16 ^ k * 16 + n % 16 = n % 16 ^ (k + 1) := by
      rw [Nat.pow_succ', Nat.mod_mul]
      omega
    have hshift : (List.range k).map (fun i => write (n / 16 ^ (k - i))) =
        (List.range k).map fun i => write (n / 16 / 16 ^ (k - 1 - i)) := by
      refine List.map_congr_left fun i hi => ?_
      have hi := List.mem_range.1 hi
      rw [Nat.div_div_eq_div_mul, ← Nat.pow_succ', show k - i = (k - 1 - i).succ by omega]
    have hfirst := hexNumber?_digits hwrite k (n / 16)
    rw [hexNumber?] at hfirst ⊢
    rw [List.range_succ, List.map_append, Nat.add_sub_cancel, hshift, List.foldlM_append, hfirst,
      List.map_singleton, Nat.sub_self, Nat.pow_zero, Nat.div_one, ← hlast]
    change (hexValue? (write n)).map _ >>= pure = _
    rw [hwrite]
    rfl

end TraceWatch.Text
