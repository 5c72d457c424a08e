import TraceWatch.Proofs.Text.Hexadecimal
import TraceWatch.Uuid

/-!
# Identifiers by their texts

Reading the text of an identifier gives the identifier back: `Uuid.parse?_render`. So it can be told
from its text.
-/

namespace TraceWatch.Uuid

variable {a b : Uuid}

theorem hexNumber?_digits (id : Uuid) : Text.hexNumber? id.digits = some id.bits.toNat := by
  have hlt : id.bits.toNat < 16 ^ 32 := Nat.lt_of_lt_of_le id.bits.isLt (by decide)
  exact (Text.hexNumber?_digits Text.hexValue?_hexDigit 32 id.bits.toNat).trans
    (by rw [Nat.mod_eq_of_lt hlt])

theorem length_digits (id : Uuid) : id.digits.length = 32 := by
  rw [digits, List.length_map, List.length_range]

/-- An identifier is read back from its digits. -/
theorem ofDigits?_digits (id : Uuid) : ofDigits? id.digits = some id := by
  rw [ofDigits?, if_pos id.length_digits, hexNumber?_digits, Option.map_some, BitVec.ofNat_toNat,
    BitVec.setWidth_eq]

/-- An identifier is read back from its text. -/
theorem parse?_render (id : Uuid) : parse? id.render = some id := by
  have hgroups : ofGroups? id.render.toList = some id := by
    rw [render, String.toList_ofList]
    exact (if_pos ⟨rfl, rfl, rfl, rfl, rfl⟩).trans (ofDigits?_digits id)
  have hlength : id.render.toList.length = 36 := by
    rw [render, String.toList_ofList]
    rfl
  obtain ⟨n, rest, hfirst⟩ : ∃ n rest, id.render.toList = Text.hexDigit n :: rest := by
    rw [render, String.toList_ofList]
    exact ⟨_, _, rfl⟩
  have hdigit : ∀ {c tail}, id.render.toList = c :: tail → Text.hexDigit n = c :=
    fun htext => (List.cons.inj (hfirst.symm.trans htext)).1
  -- a digit begins none of the other forms
  rw [parse?]
  split
  · next htext => exact absurd (hdigit htext) (Text.hexDigit_ne (by decide) n)
  · next htext => exact absurd (hdigit htext) (Text.hexDigit_ne (by decide) n)
  · rw [if_neg (by rw [hlength]; decide), hgroups]

/-- An identifier can be told from its text. -/
theorem render_injective (h : a.render = b.render) : a = b :=
  Option.some.inj (by rw [← parse?_render a, h, parse?_render])

end TraceWatch.Uuid
