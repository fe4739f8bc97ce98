import Mathlib.Algebra.Order.Ring.Nat
import SourceAtlas.Number.Decimal

/-!
# Integers beyond every double

An integer has a nearest double up to half a step beyond the greatest one. That half step is the
first integer that rounds to infinity: the greatest double has an odd mantissa, and of two equally
near neighbours the even one is taken.

Results:
* `isInf_pack_finite`: a finite value packs to infinity iff its exponent is too great.
* `isInf_pack_round`: an exact value rounds to infinity iff it reaches the half step.
* `floatOfInt?_eq_none_iff`: an integer lies beyond every double iff its magnitude reaches it.
-/

namespace SourceAtlas.Number

open Float.Model
open Float.Model.UnpackedFloat

/-- Half a step beyond the greatest double. -/
def overflowBound : Nat := (Nat.pow 2 54 - 1) * Nat.pow 2 970

/-! ## Packing -/

theorem exponentBias_binary64 : Format.binary64.exponentBias = 1023 := by decide

theorem mantissaBits_binary64 : Format.binary64.mantissaBits = 53 := rfl

theorem targetExponent_binary64 (top : Int) :
    Format.binary64.targetExponent top = max (top - 53) (-1074) := by
  have hmin : Format.binary64.minExponent = -1074 := by decide
  rw [Format.targetExponent, hmin, mantissaBits_binary64]
  rfl

/-- The exponent that infinities have. -/
abbrev topExponent : BitVec Format.binary64.exponentBits := -BitVec.ofNat _ 1

/-- Zero, or finite with no greater exponent than some bound. -/
def Below (bound : Int) : UnpackedFloat → Prop
  | .zero _ => True
  | .finite _ m e _ => m < 2 ^ 53 ∧ e ≤ bound
  | _ => False

theorem Below.isInf {bound : Int} {u : UnpackedFloat} (h : Below bound u) : u.isInf = false := by
  cases u with
  | zero s => rfl
  | finite s m e hm => rfl
  | notANumber => cases h
  | infinity s => cases h

/-- Bits whose exponent is not the one of infinities. -/
theorem below_unpack {b : BitVec Format.binary64.numBits} {bound : Int} (hbound : -1074 ≤ bound)
    (h : (unpackExponent b).toNat ≤ bound + 1075) (hlt : (unpackExponent b).toNat < 2047) :
    Below bound (UnpackedFloat.unpack Format.binary64 b) := by
  have hne : unpackExponent b ≠ topExponent := by
    intro heq
    rw [heq] at hlt
    exact absurd hlt (by decide)
  have hbias : (Format.binary64.exponentBias : Int) +
      Format.binary64.mantissaBitsWithoutImplicit = 1075 := by decide
  unfold UnpackedFloat.unpack
  dsimp only
  rw [if_neg hne, hbias]
  by_cases hzero : unpackExponent b = BitVec.ofNat _ 0
  · rw [if_pos hzero]
    by_cases hmantissa : unpackMantissa b = BitVec.ofNat _ 0
    · rw [dif_pos hmantissa]
      trivial
    · rw [dif_neg hmantissa]
      refine ⟨Nat.lt_trans (BitVec.isLt _) (by decide), ?_⟩
      rw [hzero]
      exact hbound
  · rw [if_neg hzero]
    exact ⟨BitVec.isLt _, by omega⟩

theorem isInf_pack (u : UnpackedFloat) :
    (Float.Model.pack u).isInf =
      (UnpackedFloat.unpack Format.binary64 (UnpackedFloat.pack Format.binary64 u)).isInf := rfl

theorem isInf_pack_zero (s : Sign) : (Float.Model.pack (.zero s)).isInf = false := by
  cases s <;> decide

theorem unpack_pack_zero (s : Sign) : (Float.Model.pack (.zero s)).unpack = .zero s := by
  cases s <;> rfl

/-- The bits of a finite value: infinity, a value with a leading bit or one without. -/
theorem pack_finite (s : Sign) (m : Nat) (e : Int) (hm : 0 < m) :
    UnpackedFloat.pack Format.binary64 (.finite s m e hm) =
      if 972 ≤ e then packedInfinity Format.binary64 s
      else packComponents Format.binary64 s
        (if m.log2 + 1 = Format.binary64.mantissaBits then BitVec.ofNat _ (e + 1075).toNat
          else BitVec.ofNat _ 0)
        (BitVec.ofNat _ m) := by
  have hexponent : (e + Format.binary64.exponentBias +
      Format.binary64.mantissaBitsWithoutImplicit).toNat = (e + 1075).toNat := by
    rw [exponentBias_binary64]
    show (e + 1023 + 52).toNat = _
    rw [Int.add_assoc]
    rfl
  have hgreat : 2 ^ Format.binary64.exponentBits ≤ (e + 1075).toNat + 1 ↔ 972 ≤ e := by
    show 2048 ≤ _ ↔ _
    omega
  show (if 2 ^ Format.binary64.exponentBits ≤ (e + Format.binary64.exponentBias +
      Format.binary64.mantissaBitsWithoutImplicit).toNat + 1 then _ else _) = _
  rw [hexponent]
  by_cases he : 972 ≤ e
  · rw [if_pos (hgreat.mpr he), if_pos he]
  · rw [if_neg (mt hgreat.mp he), if_neg he]
    split <;> rfl

/-- A finite value of a small exponent keeps it, packed and unpacked. -/
theorem below_unpack_pack {bound : Int} (hbound : -1074 ≤ bound) (hlt : bound < 972) (s : Sign)
    (m : Nat) {e : Int} (he : e ≤ bound) (hm : 0 < m) :
    Below bound (Float.Model.pack (.finite s m e hm)).unpack := by
  show Below bound (UnpackedFloat.unpack Format.binary64
    (UnpackedFloat.pack Format.binary64 (.finite s m e hm)))
  rw [pack_finite, if_neg (by omega)]
  have hexponent : ((if m.log2 + 1 = Format.binary64.mantissaBits then
      BitVec.ofNat Format.binary64.exponentBits (e + 1075).toNat
      else BitVec.ofNat _ 0).toNat : Int) ≤ bound + 1075 := by
    split
    · rw [BitVec.toNat_ofNat]
      have hmod : (e + 1075).toNat % 2 ^ Format.binary64.exponentBits ≤ (e + 1075).toNat :=
        Nat.mod_le _ _
      omega
    · show ((0 : Nat) : Int) ≤ _
      omega
  refine below_unpack hbound ?_ ?_
  · rw [unpackExponent_packComponents]
    exact hexponent
  · rw [unpackExponent_packComponents]
    omega

/-- A finite value packs to infinity iff its exponent is too great. -/
theorem isInf_pack_finite (s : Sign) (m : Nat) (e : Int) (hm : 0 < m) :
    (Float.Model.pack (.finite s m e hm)).isInf = true ↔ 972 ≤ e := by
  by_cases he : 972 ≤ e
  · rw [isInf_pack, pack_finite, if_pos he]
    refine iff_of_true ?_ he
    cases s <;> decide
  · have hbelow : Below 971 (Float.Model.pack (.finite s m e hm)).unpack :=
      below_unpack_pack (by decide) (by decide) s m (by omega) hm
    exact iff_of_false (Bool.eq_false_iff.mp hbelow.isInf) he

/-! ## Rounding -/

theorem mantissa_shiftRight (em : ExtendedMantissa) (k : Nat) :
    (em >>> k).mantissa = em.mantissa / 2 ^ k := by
  induction k with
  | zero => exact (Nat.div_one _).symm
  | succ k ih =>
    show (em >>> k).mantissa / 2 = _
    rw [ih, Nat.div_div_eq_div_mul, Nat.pow_succ]

theorem roundBit_shiftRight (em : ExtendedMantissa) (k : Nat) :
    (em >>> (k + 1)).roundBit = (em.mantissa / 2 ^ k % 2 != 0) := by
  show ((em >>> k).mantissa % 2 != 0) = _
  rw [mantissa_shiftRight]

theorem roundedMantissa_bounds (em : ExtendedMantissa) :
    em.mantissa ≤ em.roundedMantissa ∧ em.roundedMantissa ≤ em.mantissa + 1 := by
  obtain ⟨m, r, s⟩ := em
  cases r <;> cases s <;>
    simp only [ExtendedMantissa.roundedMantissa, ExtendedMantissa.accuracy,
      Accuracy.roundToNearestEven] <;>
    omega

/-- An odd mantissa is rounded up iff half a step or more is left. -/
theorem roundedMantissa_of_odd {em : ExtendedMantissa} (h : em.mantissa % 2 = 1) :
    em.roundedMantissa = em.mantissa + em.roundBit.toNat := by
  obtain ⟨m, r, s⟩ := em
  cases r <;> cases s <;>
    simp_all [ExtendedMantissa.roundedMantissa, ExtendedMantissa.accuracy,
      Accuracy.roundToNearestEven]

/-- By how many places an exact mantissa is shifted before it is rounded. -/
def roundingShift (m : Nat) (e : Int) : Nat := (max (m.log2 + 1 + e - 53) (-1074) - e).toNat

/-- An exact mantissa after the shift, rounded. -/
def shiftedRounded (m : Nat) (e : Int) : Nat :=
  (ExtendedMantissa.ofMantissaAndAccuracy m .exact >>> roundingShift m e).roundedMantissa

theorem shiftToTargetExponent_eq (m : Nat) (e : Int) (a : Accuracy) :
    shiftToTargetExponent Format.binary64 m e a =
      (ExtendedMantissa.ofMantissaAndAccuracy m a >>> roundingShift m e,
        e + roundingShift m e) := by
  rw [shiftToTargetExponent, targetExponent_binary64]
  rfl

theorem mantissa_shift_lt (m : Nat) (e : Int) : m / 2 ^ roundingShift m e < 2 ^ 53 := by
  rw [Nat.div_lt_iff_lt_mul (Nat.two_pow_pos _), ← Nat.pow_add]
  refine Nat.lt_of_lt_of_le (Nat.lt_log2_self (n := m)) (Nat.pow_le_pow_right (by decide) ?_)
  unfold roundingShift
  omega

theorem shiftedRounded_le (m : Nat) (e : Int) : shiftedRounded m e ≤ 2 ^ 53 := by
  have hlt := mantissa_shift_lt m e
  have hle := (roundedMantissa_bounds
    (ExtendedMantissa.ofMantissaAndAccuracy m .exact >>> roundingShift m e)).2
  rw [mantissa_shiftRight] at hle
  unfold shiftedRounded
  exact Nat.le_trans hle hlt

/-- A rounded mantissa is shifted once more iff it has one bit too many. -/
theorem roundingShift_of_le {r : Nat} (hr : r ≤ 2 ^ 53) {e : Int} (he : -1074 ≤ e) :
    roundingShift r e = if r = 2 ^ 53 then 1 else 0 := by
  unfold roundingShift
  split
  · rename_i h
    have hlog : r.log2 = 53 := by rw [h, Nat.log2_two_pow]
    omega
  · rename_i h
    have hlog : r.log2 ≤ 52 := by
      rcases Nat.eq_zero_or_pos r with rfl | hpos
      · decide
      · have := (Nat.log2_lt hpos.ne').mpr (Nat.lt_of_le_of_ne hr h)
        omega
    omega

/-- An exact value that does not round to zero has the exponent of the shift, or one more where the
    mantissa becomes one bit too long. -/
theorem roundWithAccuracy_exact (s : Sign) (m : Nat) (e : Int) :
    (shiftedRounded m e = 0 ∧ roundWithAccuracy Format.binary64 s m e .exact = .zero s) ∨
    ∃ r h, shiftedRounded m e ≠ 0 ∧
      roundWithAccuracy Format.binary64 s m e .exact = .finite s r
        (e + roundingShift m e + if shiftedRounded m e = 2 ^ 53 then 1 else 0) h := by
  have hmin : -1074 ≤ e + roundingShift m e := by
    unfold roundingShift
    omega
  obtain ⟨r, hr⟩ : ∃ r, r = shiftedRounded m e := ⟨_, rfl⟩
  have hshift := roundingShift_of_le (hr ▸ shiftedRounded_le m e) hmin
  have hmantissa : (ExtendedMantissa.ofMantissaAndAccuracy r .exact >>>
      roundingShift r (e + roundingShift m e)).mantissa = 0 ↔ r = 0 := by
    rw [mantissa_shiftRight, hshift]
    show r / _ = 0 ↔ _
    split
    · rename_i h
      rw [h]
      decide
    · rw [Nat.pow_zero, Nat.div_one]
  have hfinal : roundWithAccuracy Format.binary64 s m e .exact =
      if h : (ExtendedMantissa.ofMantissaAndAccuracy r .exact >>>
          roundingShift r (e + roundingShift m e)).mantissa = 0 then .zero s
      else .finite s _ (e + roundingShift m e + roundingShift r (e + roundingShift m e))
        (Nat.pos_of_ne_zero h) := by
    rw [hr]
    unfold roundWithAccuracy
    rw [shiftToTargetExponent_eq]
    dsimp only
    rw [show ExtendedMantissa.roundedMantissa _ = shiftedRounded m e from rfl,
      shiftToTargetExponent_eq]
  rw [hfinal, ← hr]
  by_cases hzero : r = 0
  · exact Or.inl ⟨hzero, dif_pos (hmantissa.mpr hzero)⟩
  · refine Or.inr ⟨_, Nat.pos_of_ne_zero (mt hmantissa.mp hzero), hzero, ?_⟩
    have hexponent : (roundingShift r (e + roundingShift m e) : Int) =
        if r = 2 ^ 53 then 1 else 0 := by
      rw [hshift]
      split <;> rfl
    rw [dif_neg (mt hmantissa.mp hzero), hexponent]

/-- An exact value rounds to infinity iff its rounded exponent is too great. -/
theorem isInf_pack_round_iff (s : Sign) (m : Nat) (e : Int) :
    (Float.Model.pack (roundWithAccuracy Format.binary64 s m e .exact)).isInf = true ↔
      shiftedRounded m e ≠ 0 ∧
        972 ≤ e + roundingShift m e + if shiftedRounded m e = 2 ^ 53 then 1 else 0 := by
  rcases roundWithAccuracy_exact s m e with ⟨hzero, hround⟩ | ⟨r, hr, hne, hround⟩
  · rw [hround, isInf_pack_zero]
    exact iff_of_false Bool.false_ne_true (fun h => h.1 hzero)
  · rw [hround, isInf_pack_finite]
    exact (and_iff_right hne).symm

/-- A mantissa of 53 bits becomes one bit too long iff all its bits and the next one are set. -/
theorem roundedMantissa_eq_iff {m k : Nat} (hlt : m / 2 ^ k < 2 ^ 54) :
    (ExtendedMantissa.ofMantissaAndAccuracy m .exact >>> (k + 1)).roundedMantissa = 2 ^ 53 ↔
      m / 2 ^ k = 2 ^ 54 - 1 := by
  obtain ⟨em, hem⟩ : ∃ em, em = ExtendedMantissa.ofMantissaAndAccuracy m .exact >>> (k + 1) :=
    ⟨_, rfl⟩
  have hmantissa : em.mantissa = m / 2 ^ k / 2 := by
    rw [hem, mantissa_shiftRight, Nat.div_div_eq_div_mul, Nat.pow_succ]
    rfl
  have hbit : em.roundBit = (m / 2 ^ k % 2 != 0) := by
    rw [hem, roundBit_shiftRight]
    rfl
  rw [← hem]
  generalize m / 2 ^ k = bits at *
  constructor
  · intro hround
    have hle := (roundedMantissa_bounds em).2
    have htop : em.mantissa = 2 ^ 53 - 1 := by omega
    rw [roundedMantissa_of_odd (by omega), hbit] at hround
    have hodd : bits % 2 = 1 := by
      rcases Nat.mod_two_eq_zero_or_one bits with hzero | hone
      · simp only [hzero, bne_self_eq_false, Bool.toNat_false] at hround
        omega
      · exact hone
    omega
  · rintro rfl
    rw [roundedMantissa_of_odd (by omega), hbit, hmantissa]
    decide

theorem overflowBound_eq : overflowBound = (2 ^ 54 - 1) * 2 ^ 970 := by decide +kernel

theorem two_pow_le_overflowBound : 2 ^ 1023 ≤ overflowBound := by decide +kernel

theorem overflowBound_le_two_pow : overflowBound ≤ 2 ^ 1024 := by decide +kernel

section

variable (s : Sign) {m j : Nat}

theorem isInf_pack_round_of_lt (hlog : m.log2 < 1023 + j) :
    (Float.Model.pack (roundWithAccuracy Format.binary64 s m (-j) .exact)).isInf = false := by
  have hshift : -(j : Int) + roundingShift m (-j) ≤ 970 := by
    unfold roundingShift
    omega
  rw [Bool.eq_false_iff, Ne, isInf_pack_round_iff]
  rintro ⟨-, hexponent⟩
  split at hexponent <;> omega

theorem isInf_pack_round_of_gt (hlog : 1023 + j < m.log2) :
    (Float.Model.pack (roundWithAccuracy Format.binary64 s m (-j) .exact)).isInf = true := by
  have hlow : 2 ^ m.log2 ≤ m := Nat.log2_self_le (by rintro rfl; simp at hlog)
  have hshift : (roundingShift m (-j) : Int) = m.log2 - 52 := by
    unfold roundingShift
    omega
  have hpos : 0 < m / 2 ^ roundingShift m (-j) :=
    Nat.div_pos (Nat.le_trans (Nat.pow_le_pow_right (by decide) (by omega)) hlow)
      (Nat.two_pow_pos _)
  have hne : shiftedRounded m (-j) ≠ 0 := by
    have hle := (roundedMantissa_bounds
      (ExtendedMantissa.ofMantissaAndAccuracy m .exact >>> roundingShift m (-j))).1
    rw [mantissa_shiftRight] at hle
    exact (Nat.lt_of_lt_of_le hpos hle).ne'
  rw [isInf_pack_round_iff]
  refine ⟨hne, ?_⟩
  split <;> omega

/-- Among the values with the greatest exponent, those round to infinity that reach the half
    step. -/
theorem isInf_pack_round_of_eq (hlog : m.log2 = 1023 + j) :
    (Float.Model.pack (roundWithAccuracy Format.binary64 s m (-j) .exact)).isInf = true ↔
      overflowBound * 2 ^ j ≤ m := by
  have hshift : roundingShift m (-j) = 970 + j + 1 := by
    unfold roundingShift
    omega
  have hbits : m / 2 ^ (970 + j) < 2 ^ 54 := by
    rw [Nat.div_lt_iff_lt_mul (Nat.two_pow_pos _), ← Nat.pow_add]
    exact Nat.lt_of_lt_of_le Nat.lt_log2_self (Nat.pow_le_pow_right (by decide) (by omega))
  have htop : shiftedRounded m (-j) = 2 ^ 53 ↔ m / 2 ^ (970 + j) = 2 ^ 54 - 1 := by
    unfold shiftedRounded
    rw [hshift]
    exact roundedMantissa_eq_iff hbits
  have hbound : overflowBound * 2 ^ j ≤ m ↔ 2 ^ 54 - 1 ≤ m / 2 ^ (970 + j) := by
    rw [Nat.le_div_iff_mul_le (Nat.two_pow_pos _), overflowBound_eq, pow_add, Nat.mul_assoc]
  rw [isInf_pack_round_iff, hbound, hshift]
  constructor
  · rintro ⟨-, hexponent⟩
    split at hexponent
    · rename_i h
      exact (htop.mp h).ge
    · omega
  · intro h
    rw [htop.mpr (by omega), if_pos rfl]
    exact ⟨by decide, by omega⟩

/-- An exact value rounds to infinity iff it reaches the half step. -/
theorem isInf_pack_round (hm : 0 < m) :
    (Float.Model.pack (roundWithAccuracy Format.binary64 s m (-j) .exact)).isInf = true ↔
      overflowBound * 2 ^ j ≤ m := by
  rcases lt_trichotomy m.log2 (1023 + j) with hlog | hlog | hlog
  · rw [isInf_pack_round_of_lt s hlog]
    refine iff_of_false Bool.false_ne_true (Nat.not_le.mpr ?_)
    calc m < 2 ^ (m.log2 + 1) := Nat.lt_log2_self
      _ ≤ 2 ^ (1023 + j) := Nat.pow_le_pow_right (by decide) (by omega)
      _ = 2 ^ 1023 * 2 ^ j := pow_add ..
      _ ≤ overflowBound * 2 ^ j := Nat.mul_le_mul_right _ two_pow_le_overflowBound
  · exact isInf_pack_round_of_eq s hlog
  · refine iff_of_true (isInf_pack_round_of_gt s hlog) ?_
    calc overflowBound * 2 ^ j ≤ 2 ^ 1024 * 2 ^ j :=
          Nat.mul_le_mul_right _ overflowBound_le_two_pow
      _ = 2 ^ (1024 + j) := (pow_add ..).symm
      _ ≤ 2 ^ m.log2 := Nat.pow_le_pow_right (by decide) (by omega)
      _ ≤ m := Nat.log2_self_le hm.ne'

end

/-! ## Integers -/

/-- From the bound of exact integers on, an integer is rounded at once. -/
theorem toModel_ofScientific_of_le {n : Nat} (hn : 2 ^ 53 ≤ n) :
    (Float.ofScientific n false 0).toModel = Float.Model.pack
      (roundWithAccuracy Format.binary64 .positive (n * 2 ^ 53) (-(53 : Nat)) .exact) := by
  have hpos : n ≠ 0 := (Nat.lt_of_lt_of_le (by decide) hn).ne'
  have hbits : (2 : Int) ^ Format.binary64.exponentBits = 2048 := by decide
  unfold Float.ofScientific
  rw [dif_neg (fun h => absurd h.1 (Nat.not_lt.mpr hn))]
  show Float.Model.pack (UnpackedFloat.ofScientific Format.binary64 n 0) = _
  unfold UnpackedFloat.ofScientific
  rw [dif_neg hpos, if_neg (by decide), if_neg (by omega), if_pos (le_refl 0),
    ← Nat.shiftLeft_eq, ← Nat.mul_one (n <<< 53)]
  rfl

theorem isInf_ofScientific_of_le {n : Nat} (hn : 2 ^ 53 ≤ n) :
    (Float.ofScientific n false 0).isInf = true ↔ overflowBound ≤ n := by
  have hpos : 0 < n := Nat.lt_of_lt_of_le (by decide) hn
  show (Float.ofScientific n false 0).toModel.isInf = true ↔ _
  rw [toModel_ofScientific_of_le hn,
    isInf_pack_round .positive (Nat.mul_pos hpos (Nat.two_pow_pos 53))]
  exact ⟨fun h => Nat.le_of_mul_le_mul_right h (Nat.two_pow_pos 53), Nat.mul_le_mul_right _⟩

/-- A value below the bound of exact integers rounds to a small exponent. -/
theorem below_unpack_pack_round (s : Sign) {m j : Nat} (hm : m < 2 ^ (53 + j)) :
    Below 1 (Float.Model.pack
      (roundWithAccuracy Format.binary64 s m (0 - j) .exact)).unpack := by
  have hlog : m.log2 < 53 + j := by
    rcases Nat.eq_zero_or_pos m with rfl | hpos
    · rw [Nat.log2_zero]
      omega
    · exact (Nat.log2_lt hpos.ne').mpr hm
  rcases roundWithAccuracy_exact s m (0 - j) with ⟨-, hround⟩ | ⟨r, hr, -, hround⟩
  · rw [hround, unpack_pack_zero]
    trivial
  · rw [hround]
    refine below_unpack_pack (by decide) (by decide) s r ?_ hr
    have hshift : 0 - (j : Int) + roundingShift m (0 - j) ≤ 0 := by
      unfold roundingShift
      omega
    split <;> omega

/-- The double of a small integer is finite with a small exponent. -/
theorem below_unpack_toFloat {n : Nat} (hn : n < 2 ^ 53) :
    Below 1 n.toUInt64.toFloat.toModel.unpack := by
  have hnat : n.toUInt64.toNat = n :=
    UInt64.toNat_ofNat_of_lt' (Nat.lt_trans hn (by decide))
  show Below 1 (Float.Model.pack
    (UnpackedFloat.normalize Format.binary64 (n.toUInt64.toNat : Int) 0 .positive)).unpack
  rw [hnat]
  unfold UnpackedFloat.normalize
  split
  · rename_i h
    have := Int.compare_eq_lt.mp h
    omega
  · rw [unpack_pack_zero]
    trivial
  · unfold UnpackedFloat.round decreaseExponent
    dsimp only
    rw [Int.toNat_natCast]
    refine below_unpack_pack_round _ ?_
    rw [Nat.shiftLeft_eq, Nat.pow_add]
    exact Nat.mul_lt_mul_of_pos_right hn (Nat.two_pow_pos _)

/-- What is finite with a small exponent stays finite times one. -/
theorem isInf_mul_one {u : UnpackedFloat} (hu : Below 1 u) (h : 0 < 2 ^ 52) :
    (Float.Model.pack
      (UnpackedFloat.mul Format.binary64 u (.finite .positive (2 ^ 52) (-52) h))).isInf = false := by
  cases u with
  | zero s => exact isInf_pack_zero _
  | finite s m e hm =>
    obtain ⟨hmantissa, he⟩ := hu
    show (Float.Model.pack (roundWithAccuracy Format.binary64 (s * .positive) (m * 2 ^ 52)
      (e + -52) .exact)).isInf = false
    have hexponent : e + -52 = -((52 - e).toNat : Int) := by omega
    rw [hexponent, Bool.eq_false_iff, Ne, isInf_pack_round _ (Nat.mul_pos hm h), not_le]
    calc m * 2 ^ 52 < 2 ^ 53 * 2 ^ 52 := Nat.mul_lt_mul_of_pos_right hmantissa h
      _ ≤ 2 ^ 1023 := by decide +kernel
      _ ≤ overflowBound := two_pow_le_overflowBound
      _ ≤ overflowBound * 2 ^ (52 - e).toNat := Nat.le_mul_of_pos_right _ (Nat.two_pow_pos _)
  | notANumber => cases hu
  | infinity s => cases hu

/-- An integer below the bound of exact integers is a double. -/
theorem isInf_ofScientific_of_lt {n : Nat} (hn : n < 2 ^ 53) :
    (Float.ofScientific n false 0).isInf = false := by
  have hone : (Float.ofBits 0x3FF0000000000000).toModel.unpack =
      .finite .positive (2 ^ 52) (-52) (by decide) := by rfl
  unfold Float.ofScientific
  rw [dif_pos ⟨hn, by decide⟩]
  show (Float.Model.pack (UnpackedFloat.mul Format.binary64 n.toUInt64.toFloat.toModel.unpack
    (Float.ofBits 0x3FF0000000000000).toModel.unpack)).isInf = false
  rw [hone]
  exact isInf_mul_one (below_unpack_toFloat hn) _

theorem isInf_ofScientific (n : Nat) :
    (Float.ofScientific n false 0).isInf = true ↔ overflowBound ≤ n := by
  rcases Nat.lt_or_ge n (2 ^ 53) with hlt | hge
  · rw [isInf_ofScientific_of_lt hlt]
    refine iff_of_false Bool.false_ne_true (Nat.not_le.mpr ?_)
    calc n < 2 ^ 53 := hlt
      _ ≤ 2 ^ 1023 := by decide +kernel
      _ ≤ overflowBound := two_pow_le_overflowBound
  · exact isInf_ofScientific_of_le hge

/-! ## Decimal numbers -/

theorem exponent_le_of_unpack {b : BitVec Format.binary64.numBits} {s : Sign} {m : Nat} {e : Int}
    {hm : 0 < m} (h : UnpackedFloat.unpack Format.binary64 b = .finite s m e hm) : e ≤ 971 := by
  have hne : unpackExponent b ≠ topExponent := by
    intro heq
    unfold UnpackedFloat.unpack at h
    dsimp only at h
    rw [if_pos heq] at h
    by_cases hmantissa : unpackMantissa b = BitVec.ofNat _ 0
    · rw [if_pos hmantissa] at h
      cases h
    · rw [if_neg hmantissa] at h
      cases h
  have hbits : 2 ^ Format.binary64.exponentBits = 2048 := by decide
  have hlt : (unpackExponent b).toNat < 2047 := by
    have hmax : (unpackExponent b).toNat < 2 ^ Format.binary64.exponentBits := BitVec.isLt _
    have htop : (unpackExponent b).toNat ≠ 2047 := fun heq => hne (BitVec.eq_of_toNat_eq heq)
    omega
  have hbelow : Below 971 (UnpackedFloat.unpack Format.binary64 b) :=
    below_unpack (by decide) (by omega) hlt
  rw [h] at hbelow
  exact hbelow.2

theorem isInf_neg (x : Float) : (-x).isInf = x.isInf := by
  show (Float.Model.pack x.toModel.unpack.neg).isInf = x.toModel.unpack.isInf
  cases h : x.toModel.unpack with
  | infinity s => cases s <;> decide
  | notANumber => decide
  | zero s => exact isInf_pack_zero _
  | finite s m e hm =>
    have he := exponent_le_of_unpack h
    show (Float.Model.pack (.finite (-s) m e hm)).isInf = false
    rw [Bool.eq_false_iff, Ne, isInf_pack_finite]
    omega

/-- A number of more than `k` digits is `10 ^ k` or more. -/
theorem pow_le_of_lt_digitCount {k n : Nat} (hk : 0 < k) (h : k < digitCount n) : 10 ^ k ≤ n := by
  rw [← not_lt, ← Nat.length_toDigits_le_iff (by decide) hk, not_le]
  exact h

theorem isInf_magnitude (digits : Nat) :
    (Decimal.magnitude digits 0).isInf = true ↔ overflowBound ≤ digits := by
  unfold Decimal.magnitude
  dsimp only
  split
  · rename_i hzero
    rw [beq_iff_eq.mp hzero]
    exact iff_of_false (by decide) (by decide +kernel)
  · split
    · rename_i hsize
      refine iff_of_true (by decide +kernel) ?_
      have hlong : 310 < digitCount digits := by omega
      calc overflowBound ≤ 2 ^ 1024 := overflowBound_le_two_pow
        _ ≤ 10 ^ 310 := by decide +kernel
        _ ≤ digits := pow_le_of_lt_digitCount (by decide) hlong
    · rw [if_neg (by omega), if_neg (by decide)]
      exact isInf_ofScientific digits

/-- **Integers that are no doubles.** An integer lies beyond every double iff its magnitude reaches
    half a step beyond the greatest one. -/
theorem floatOfInt?_eq_none_iff {n : Int} :
    floatOfInt? n = none ↔ overflowBound ≤ n.natAbs := by
  rw [← isInf_magnitude]
  have hsign : (Decimal.toFloat ⟨n < 0, n.natAbs, 0⟩).isInf =
      (Decimal.magnitude n.natAbs 0).isInf := by
    unfold Decimal.toFloat
    dsimp only
    split
    · exact isInf_neg _
    · rfl
  unfold floatOfInt?
  dsimp only
  rw [hsign]
  split <;> simp_all

end SourceAtlas.Number
