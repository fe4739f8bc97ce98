import Mathlib.Algebra.Group.Nat.Defs
import SourceAtlas.Proofs.Text.Utf8

/-!
# Decoding

The bytes of a character are one that tells how many follow, and then six bits with each. The
decoder takes in such bytes as they were put together, so that encoded text is decoded to what it
was; and bytes that leave nothing over are the encoding of what they are decoded to.

Results:
* `decodeFrom_tails`, `exists_tails_of_isValidFrom`: what becomes of the bytes behind the first.
* `decode_encode`: encoded text is decoded to what it was.
* `isValid_iff`: bytes decode without replacement iff they are the encoding of a text.
-/

namespace SourceAtlas.Text.Utf8

/-! ## The bytes behind the first -/

/-- The last `k` times six bits of a number, six to a byte. -/
def tails : Nat → Nat → List UInt8
  | 0, _ => []
  | k + 1, n => UInt8.ofNat (0x80 + n / 64 ^ k % 64) :: tails k n

theorem toNat_tail (m : Nat) : (UInt8.ofNat (0x80 + m % 64)).toNat = 0x80 + m % 64 := by
  rw [UInt8.toNat_ofNat']
  omega

theorem ofNat_tail {b : UInt8} (hlow : 0x80 ≤ b.toNat) (hhigh : b.toNat ≤ 0xBF) :
    UInt8.ofNat (0x80 + (b.toNat - 0x80) % 64) = b := by
  rw [← UInt8.toNat_inj, toNat_tail]
  omega

theorem tails_add (k m n : Nat) : tails k (m * 64 ^ k + n) = tails k n := by
  induction k generalizing m with
  | zero => rfl
  | succ k ih =>
    have hsplit : m * 64 ^ (k + 1) + n = m * 64 * 64 ^ k + n := by
      rw [Nat.pow_succ, Nat.mul_assoc, Nat.mul_comm 64]
    have hdigit : (m * 64 * 64 ^ k + n) / 64 ^ k % 64 = n / 64 ^ k % 64 := by
      rw [Nat.mul_comm (m * 64), Nat.mul_add_div (Nat.pow_pos (by decide)),
        Nat.mul_add_mod_self_right]
    rw [hsplit, tails, tails, ih, hdigit]

theorem add_div_pow {k n : Nat} (hn : n < 64 ^ k) (m : Nat) : (m * 64 ^ k + n) / 64 ^ k = m := by
  rw [Nat.mul_comm, Nat.mul_add_div (Nat.pow_pos (by decide)), Nat.div_eq_of_lt hn, Nat.add_zero]

/-- The bytes that are owed complete a character. -/
theorem decodeFrom_tails {k low high n : Nat} (hlow : low ≤ 0x80 + n / 64 ^ k % 64)
    (hhigh : 0x80 + n / 64 ^ k % 64 ≤ high) (rest : List UInt8) :
    decodeFrom (some ⟨k + 1, low, high, n / 64 ^ (k + 1)⟩) (tails (k + 1) n ++ rest) =
      Char.ofNat n :: decodeFrom none rest := by
  induction k generalizing low high with
  | zero =>
    have hbits : n / 64 * 64 + n % 64 = n := Nat.div_add_mod' n 64
    rw [tails, List.cons_append, decodeFrom, toNat_tail, if_pos ⟨hlow, hhigh⟩]
    simp [tails, hbits]
  | succ k ih =>
    have hbits : n / 64 ^ (k + 1 + 1) * 64 + (0x80 + n / 64 ^ (k + 1) % 64 - 0x80) =
        n / 64 ^ (k + 1) := by
      rw [Nat.pow_succ, ← Nat.div_div_eq_div_mul, Nat.add_sub_cancel_left, Nat.div_add_mod']
    rw [tails, List.cons_append, decodeFrom, toNat_tail, if_pos ⟨hlow, hhigh⟩]
    dsimp only
    rw [if_neg (by omega), hbits]
    exact ih (by omega) (by omega)

/-- Bytes that leave nothing over begin with those that are owed. -/
theorem exists_tails_of_isValidFrom {k low high bits : Nat} {bs : List UInt8}
    (hbyte : 0x80 ≤ low ∧ high ≤ 0xBF) (h : isValidFrom (some ⟨k + 1, low, high, bits⟩) bs) :
    ∃ n rest, bs = tails (k + 1) n ++ rest ∧ n < 64 ^ (k + 1) ∧ low ≤ 0x80 + n / 64 ^ k ∧
      0x80 + n / 64 ^ k ≤ high ∧ isValidFrom none rest := by
  induction k generalizing low high bits bs with
  | zero =>
    cases bs with
    | nil => cases h
    | cons b bs =>
      simp only [isValidFrom, Bool.and_eq_true, decide_eq_true_eq] at h
      obtain ⟨⟨hlow, hhigh⟩, hrest⟩ := h
      refine ⟨b.toNat - 0x80, bs, ?_, by omega, by omega, by omega, hrest⟩
      have hdigit : (b.toNat - 0x80) / 64 ^ 0 = b.toNat - 0x80 := Nat.div_one _
      rw [tails, hdigit, ofNat_tail (by omega) (by omega)]
      rfl
  | succ k ih =>
    cases bs with
    | nil => cases h
    | cons b bs =>
      simp only [isValidFrom, Bool.and_eq_true, decide_eq_true_eq] at h
      obtain ⟨⟨hlow, hhigh⟩, hrest⟩ := h
      rw [if_neg (by omega)] at hrest
      obtain ⟨n, rest, rfl, hn, -, -, hvalid⟩ := ih ⟨Nat.le_refl _, Nat.le_refl _⟩ hrest
      have hdigit := add_div_pow hn (b.toNat - 0x80)
      refine ⟨(b.toNat - 0x80) * 64 ^ (k + 1) + n, rest, ?_, ?_, ?_, ?_, hvalid⟩
      · show _ = UInt8.ofNat (0x80 + _ / 64 ^ (k + 1) % 64) :: (tails (k + 1) _ ++ rest)
        rw [hdigit, ofNat_tail (by omega) (by omega), tails_add]
      · calc (b.toNat - 0x80) * 64 ^ (k + 1) + n < (b.toNat - 0x80 + 1) * 64 ^ (k + 1) := by
              rw [Nat.add_one_mul]
              exact Nat.add_lt_add_left hn _
          _ ≤ 64 * 64 ^ (k + 1) := Nat.mul_le_mul_right _ (by omega)
          _ = 64 ^ (k + 1 + 1) := (Nat.pow_succ').symm
      · rw [hdigit]
        omega
      · rw [hdigit]
        omega

/-! ## Characters -/

section
variable {c : Char}

theorem encodeChar_one (h : c.toNat < 0x80) : encodeChar c = [UInt8.ofNat c.toNat] := if_pos h

theorem encodeChar_two (h : 0x80 ≤ c.toNat) (h' : c.toNat < 0x800) :
    encodeChar c = UInt8.ofNat (0xC0 + c.toNat / 64 ^ 1) :: tails 1 c.toNat := by
  simp [encodeChar, tails, Nat.shiftRight_eq_div_pow, Nat.not_lt.mpr h, h']

theorem encodeChar_three (h : 0x800 ≤ c.toNat) (h' : c.toNat < 0x10000) :
    encodeChar c = UInt8.ofNat (0xE0 + c.toNat / 64 ^ 2) :: tails 2 c.toNat := by
  have hlong : ¬ c.toNat < 0x80 := by omega
  simp [encodeChar, tails, Nat.shiftRight_eq_div_pow, hlong, Nat.not_lt.mpr h, h']

theorem encodeChar_four (h : 0x10000 ≤ c.toNat) :
    encodeChar c = UInt8.ofNat (0xF0 + c.toNat / 64 ^ 3) :: tails 3 c.toNat := by
  have hlong : ¬ c.toNat < 0x80 ∧ ¬ c.toNat < 0x800 := by omega
  simp [encodeChar, tails, Nat.shiftRight_eq_div_pow, hlong, Nat.not_lt.mpr h]

end

theorem toNat_ofNat {n : Nat} (h : n < 256) : (UInt8.ofNat n).toNat = n := by
  rw [UInt8.toNat_ofNat', Nat.mod_eq_of_lt h]

/-- The bytes of a character: it is one byte, or one that begins it and those that are owed. -/
theorem encodeChar_cases (c : Char) :
    (∃ b : UInt8, encodeChar c = [b] ∧ lead b.toNat = .whole c) ∨
    ∃ (b : UInt8) (k low high : Nat), encodeChar c = b :: tails (k + 1) c.toNat ∧
      lead b.toNat = .begins ⟨k + 1, low, high, c.toNat / 64 ^ (k + 1)⟩ ∧
      low ≤ 0x80 + c.toNat / 64 ^ k % 64 ∧ 0x80 + c.toNat / 64 ^ k % 64 ≤ high := by
  have hvalid : c.toNat < 0xD800 ∨ 0xDFFF < c.toNat ∧ c.toNat < 0x110000 := c.valid
  by_cases h₁ : c.toNat < 0x80
  · refine .inl ⟨_, encodeChar_one h₁, ?_⟩
    rw [toNat_ofNat (by omega), lead, if_pos h₁, Char.ofNat_toNat]
  by_cases h₂ : c.toNat < 0x800
  · refine .inr ⟨_, 0, 0x80, 0xBF, encodeChar_two (by omega) h₂, ?_, by omega, by omega⟩
    rw [toNat_ofNat (by omega), lead, if_neg (by omega), if_neg (by omega), if_pos (by omega),
      Nat.add_sub_cancel_left]
  -- The bounds of the next byte leave out the surrogates and what fewer bytes would encode.
  by_cases h₃ : c.toNat < 0x10000
  · refine .inr ⟨_, 1, if 0xE0 + c.toNat / 64 ^ 2 = 0xE0 then 0xA0 else 0x80,
      if 0xE0 + c.toNat / 64 ^ 2 = 0xED then 0x9F else 0xBF, encodeChar_three (by omega) h₃,
      ?_, ?_, ?_⟩
    · rw [toNat_ofNat (by omega), lead, if_neg (by omega), if_neg (by omega), if_neg (by omega),
        if_pos (by omega), Nat.add_sub_cancel_left]
      simp only [beq_iff_eq]
    · split_ifs <;> omega
    · split_ifs <;> omega
  · refine .inr ⟨_, 2, if 0xF0 + c.toNat / 64 ^ 3 = 0xF0 then 0x90 else 0x80,
      if 0xF0 + c.toNat / 64 ^ 3 = 0xF4 then 0x8F else 0xBF, encodeChar_four (by omega), ?_, ?_, ?_⟩
    · rw [toNat_ofNat (by omega), lead, if_neg (by omega), if_neg (by omega), if_neg (by omega),
        if_neg (by omega), if_pos (by omega), Nat.add_sub_cancel_left]
      simp only [beq_iff_eq]
    · split_ifs <;> omega
    · split_ifs <;> omega

theorem toNat_char {n : Nat} (h : n < 0xD800 ∨ 0xDFFF < n ∧ n < 0x110000) :
    (Char.ofNat n).toNat = n := by
  rw [Char.ofNat, dif_pos h]
  rfl

/-- A byte that begins a character, and bytes as it wants them, are a character's. -/
theorem exists_char_of_begins {b : UInt8} {k low high bits n : Nat}
    (h : lead b.toNat = .begins ⟨k + 1, low, high, bits⟩) (hn : n < 64 ^ (k + 1))
    (hlow : low ≤ 0x80 + n / 64 ^ k) (hhigh : 0x80 + n / 64 ^ k ≤ high) :
    ∃ c, encodeChar c = b :: tails (k + 1) n := by
  refine ⟨Char.ofNat (bits * 64 ^ (k + 1) + n), ?_⟩
  rw [← tails_add (k + 1) bits n]
  have hbits := add_div_pow hn bits
  generalize hm : bits * 64 ^ (k + 1) + n = m at hbits ⊢
  unfold lead at h
  by_cases h₁ : b.toNat < 0x80
  · rw [if_pos h₁] at h
    cases h
  by_cases h₂ : b.toNat < 0xC2
  · rw [if_neg h₁, if_pos h₂] at h
    cases h
  by_cases h₃ : b.toNat < 0xE0
  · rw [if_neg h₁, if_neg h₂, if_pos h₃] at h
    cases h
    have hchar : (Char.ofNat m).toNat = m := toNat_char (by omega)
    have hlead : 0xC0 + (b.toNat - 0xC0) = b.toNat := by omega
    rw [encodeChar_two (by omega) (by omega), hchar, hbits, hlead, UInt8.ofNat_toNat]
  by_cases h₄ : b.toNat < 0xF0
  · rw [if_neg h₁, if_neg h₂, if_neg h₃, if_pos h₄] at h
    cases h
    simp only [beq_iff_eq] at hlow hhigh
    have hchar : (Char.ofNat m).toNat = m := toNat_char (by split_ifs at hlow hhigh <;> omega)
    have hlead : 0xE0 + (b.toNat - 0xE0) = b.toNat := by omega
    have hlong : 0x800 ≤ m := by split_ifs at hlow <;> omega
    rw [encodeChar_three (by omega) (by omega), hchar, hbits, hlead, UInt8.ofNat_toNat]
  by_cases h₅ : b.toNat < 0xF5
  · rw [if_neg h₁, if_neg h₂, if_neg h₃, if_neg h₄, if_pos h₅] at h
    cases h
    simp only [beq_iff_eq] at hlow hhigh
    have hlong : 0x10000 ≤ m := by split_ifs at hlow <;> omega
    have hchar : (Char.ofNat m).toNat = m := toNat_char (by split_ifs at hhigh <;> omega)
    have hlead : 0xF0 + (b.toNat - 0xF0) = b.toNat := by omega
    rw [encodeChar_four (by omega), hchar, hbits, hlead, UInt8.ofNat_toNat]
  · rw [if_neg h₁, if_neg h₂, if_neg h₃, if_neg h₄, if_neg h₅] at h
    cases h

theorem encodeChar_of_whole {b : UInt8} {c : Char} (h : lead b.toNat = .whole c) :
    encodeChar c = [b] := by
  by_cases h₁ : b.toNat < 0x80
  · rw [lead, if_pos h₁] at h
    cases h
    have hchar : (Char.ofNat b.toNat).toNat = b.toNat := toNat_char (by omega)
    rw [encodeChar_one (by omega), hchar, UInt8.ofNat_toNat]
  · rw [lead, if_neg h₁] at h
    split_ifs at h

/-! ## Texts -/

theorem decode_encodeChar (c : Char) (rest : List UInt8) :
    decode (encodeChar c ++ rest) = c :: decode rest := by
  unfold decode
  obtain ⟨b, hb, hlead⟩ | ⟨b, k, low, high, hb, hlead, hlow, hhigh⟩ := encodeChar_cases c
  · rw [hb, List.cons_append, decodeFrom, start, hlead]
    rfl
  · rw [hb, List.cons_append, decodeFrom, start, hlead]
    dsimp only
    rw [List.nil_append, decodeFrom_tails hlow hhigh, Char.ofNat_toNat]

/-- Encoded text is decoded to what it was. -/
theorem decode_encode (cs : List Char) : decode (encode cs) = cs := by
  induction cs with
  | nil => rfl
  | cons c cs ih =>
    calc decode (encode (c :: cs)) = c :: decode (encode cs) := decode_encodeChar c (encode cs)
      _ = c :: cs := by rw [ih]

/-- Where a character begins, at least one byte is owed, and it is one that begins none. -/
theorem owed_of_begins {b : Nat} {p : Pending} (h : lead b = .begins p) :
    ∃ k low high bits, p = ⟨k + 1, low, high, bits⟩ ∧ 0x80 ≤ low ∧ high ≤ 0xBF := by
  unfold lead at h
  split_ifs at h <;> cases h <;> exact ⟨_, _, _, _, rfl, by decide, by decide⟩

theorem isValidFrom_tails {k low high bits n : Nat} (hlow : low ≤ 0x80 + n / 64 ^ k % 64)
    (hhigh : 0x80 + n / 64 ^ k % 64 ≤ high) (rest : List UInt8) :
    isValidFrom (some ⟨k + 1, low, high, bits⟩) (tails (k + 1) n ++ rest) = isValid rest := by
  induction k generalizing low high bits with
  | zero =>
    rw [tails, List.cons_append, isValidFrom, toNat_tail, if_pos (by simp), decide_eq_true hlow,
      decide_eq_true hhigh]
    rfl
  | succ k ih =>
    rw [tails, List.cons_append, isValidFrom, toNat_tail, if_neg (by simp)]
    rw [decide_eq_true hlow, decide_eq_true hhigh]
    exact ih (by omega) (by omega)

theorem isValid_encodeChar (c : Char) (rest : List UInt8) :
    isValid (encodeChar c ++ rest) = isValid rest := by
  conv_lhs => unfold isValid
  obtain ⟨b, hb, hlead⟩ | ⟨b, k, low, high, hb, hlead, hlow, hhigh⟩ := encodeChar_cases c
  · rw [hb, List.cons_append, isValidFrom, hlead]
    rfl
  · rw [hb, List.cons_append, isValidFrom, hlead]
    exact isValidFrom_tails hlow hhigh rest

theorem isValid_encode (cs : List Char) : isValid (encode cs) := by
  induction cs with
  | nil => rfl
  | cons c cs ih => exact (isValid_encodeChar c (encode cs)).trans ih

/-- Bytes that leave nothing over are none, or those of a character before such bytes. -/
theorem isValid_cases {bs : List UInt8} (h : isValid bs) :
    bs = [] ∨ ∃ c rest, bs = encodeChar c ++ rest ∧ isValid rest := by
  cases bs with
  | nil => exact .inl rfl
  | cons b bs =>
    rw [isValid, isValidFrom] at h
    cases hlead : lead b.toNat with
    | whole c =>
      rw [hlead] at h
      exact .inr ⟨c, bs, by rw [encodeChar_of_whole hlead]; rfl, h⟩
    | begins p =>
      rw [hlead] at h
      obtain ⟨k, low, high, bits, rfl, hbyte⟩ := owed_of_begins hlead
      obtain ⟨n, rest, rfl, hn, hlow, hhigh, hrest⟩ := exists_tails_of_isValidFrom hbyte h
      obtain ⟨c, hc⟩ := exists_char_of_begins hlead hn hlow hhigh
      exact .inr ⟨c, rest, by rw [hc]; rfl, hrest⟩
    | invalid =>
      rw [hlead] at h
      cases h

/-- Bytes decode without replacement iff they are the encoding of a text. -/
theorem isValid_iff (bs : List UInt8) : isValid bs ↔ ∃ cs, bs = encode cs := by
  refine ⟨fun h => ?_, fun ⟨cs, hcs⟩ => hcs ▸ isValid_encode cs⟩
  induction hlength : bs.length using Nat.strongRecOn generalizing bs with
  | _ length ih =>
    obtain rfl | ⟨c, rest, rfl, hrest⟩ := isValid_cases h
    · exact ⟨[], rfl⟩
    · have hshorter : rest.length < length := by
        have := List.length_pos_of_ne_nil (encodeChar_ne_nil c)
        rw [← hlength, List.length_append]
        omega
      obtain ⟨cs, rfl⟩ := ih rest.length hshorter rest hrest rfl
      exact ⟨c :: cs, rfl⟩

/-! ## Texts that may go on -/

/-- Of a character under way, validity depends on how much is owed and on the next byte only. -/
def Alike (p q : Option Pending) : Prop :=
  p.map (fun p => (p.owed, p.low, p.high)) = q.map fun q => (q.owed, q.low, q.high)

/-- A text begins with the beginning of its bytes. -/
theorem begunFrom_isSome {p q : Option Pending} {bs more : List UInt8} (hpq : Alike p q)
    (h : isValidFrom p (bs ++ more)) : (begunFrom q bs).isSome := by
  induction bs generalizing p q with
  | nil => cases q <;> rfl
  | cons b bs ih =>
    rw [List.cons_append] at h
    match p, q, hpq with
    | none, none, _ =>
      rw [isValidFrom] at h
      rw [begunFrom]
      cases hlead : lead b.toNat with
      | whole c =>
        rw [hlead] at h
        rw [Option.isSome_map]
        exact ih rfl h
      | begins p =>
        rw [hlead] at h
        exact ih rfl h
      | invalid =>
        rw [hlead] at h
        cases h
    | some ⟨owed, low, high, x⟩, some ⟨_, _, _, y⟩, hpq =>
      cases hpq
      rw [isValidFrom, Bool.and_eq_true, Bool.and_eq_true, decide_eq_true_eq,
        decide_eq_true_eq] at h
      rw [begunFrom, if_pos h.1]
      dsimp only at h ⊢
      split
      · rename_i howed
        rw [if_pos howed] at h
        rw [Option.isSome_map]
        exact ih rfl h.2
      · rename_i howed
        rw [if_neg howed] at h
        refine ih ?_ h.2
        simp only [Alike, Option.map_some]

theorem begun?_ne_none {bs more : List UInt8} {cs : List Char} (h : bs ++ more = encode cs) :
    begun? bs ≠ none := by
  have hvalid : isValid (bs ++ more) := by
    rw [h]
    exact isValid_encode cs
  exact Option.isSome_iff_ne_none.mp (begunFrom_isSome rfl hvalid)

end SourceAtlas.Text.Utf8
