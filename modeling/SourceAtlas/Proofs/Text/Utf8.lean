import Mathlib.Data.List.Basic
import Mathlib.Order.Basic
import SourceAtlas.Text.Utf8

/-!
# The order of texts and of their bytes

Texts are compared by their characters, and a database compares them by their bytes. Both come to
the same, as each character is encoded so that greater ones have greater bytes at the first place
where they differ.

Results:
* `encode_lt_encode`: encoding keeps the order.
-/

namespace SourceAtlas.Text.Utf8

/-- Of two characters the greater one has the greater bytes, whatever follows them. -/
theorem encodeChar_append_lt {c d : Char} (h : c < d) (xs ys : List UInt8) :
    encodeChar c ++ xs < encodeChar d ++ ys := by
  have hlt : c.toNat < d.toNat := h
  have hd : d.toNat < 0x110000 := by
    rcases d.valid with hv | ⟨-, hv⟩
    · exact Nat.lt_trans hv (by decide)
    · exact hv
  -- Six bits at a time.
  have h₂ (n : Nat) : n / 4096 = n / 64 / 64 := by omega
  have h₃ (n : Nat) : n / 262144 = n / 64 / 64 / 64 := by omega
  unfold encodeChar
  simp only [Nat.shiftRight_eq_div_pow, Nat.reducePow, Nat.div_one, h₂, h₃]
  -- The lengths of both encodings decide at which byte they differ.
  split_ifs <;>
    simp only [List.cons_append, List.nil_append, List.cons_lt_cons_iff, UInt8.lt_iff_toNat_lt,
      ← UInt8.toNat_inj, UInt8.toNat_ofNat', Nat.reducePow] <;>
    omega

theorem encodeChar_ne_nil (c : Char) : encodeChar c ≠ [] := by
  unfold encodeChar
  dsimp only
  split_ifs <;> simp

/-- Encoding keeps the order of texts. -/
theorem encode_lt_encode {cs ds : List Char} (h : cs < ds) : encode cs < encode ds := by
  induction h with
  | nil =>
    rename_i d ds
    obtain ⟨b, bs, hb⟩ := List.exists_cons_of_ne_nil (encodeChar_ne_nil d)
    simp [encode, hb]
  | rel h => exact encodeChar_append_lt h _ _
  | cons _ ih => exact List.append_left_lt ih

end SourceAtlas.Text.Utf8
