import Mathlib
import SourceAtlas.Number.Shortest
import SourceAtlas.Proofs.Number.Overflow

/-!
# Squares that vanish

The square of a double rounds to zero where it is at most half the least double. Sums of squares
and their roots vanish only where all of the squares do: a sum of values that are not negative
never rounds to zero, and neither does a root.

Results:
* `hasSteps_unpack`: the magnitude of a double in steps of the least one; `beq_zero_iff`: it is zero
  for both zeros.
* `shiftedRounded_square_eq_zero_iff`: where the square of an exact value rounds to zero.
* `roundWithAccuracy_cases`: a rounded value is zero or fits the format.
* `weighed_square`, `weighed_add`, `weighed_sqrt`: where squares, sums and roots of doubles are
  zero; elsewhere they are positive.
-/

namespace SourceAtlas.Number

open Float.Model
open Float.Model.UnpackedFloat

/-! ## Magnitudes -/

/-- The magnitude of a finite double in steps of the least one. -/
def steps (x : Float) : Nat :=
  (Binary.ofFloat x).mantissa * 2 ^ ((Binary.ofFloat x).power + 1074).toNat

/-- Half the least double, in squares of steps. -/
def halfStep : Nat := Nat.pow 2 1073

theorem halfStep_eq : halfStep = 2 ^ 1073 := by decide +kernel

/-- The magnitude of an unpacked double in steps. Those of infinities and NaN lie beyond a bound. -/
def HasSteps (n : Nat) : UnpackedFloat → Prop
  | .zero _ => n = 0
  | .finite _ m e _ => -1074 ≤ e ∧ n = m * 2 ^ (e + 1074).toNat
  | _ => halfStep < n

/-- The bits of a double. -/
abbrev bits (x : Float) : BitVec Format.binary64.numBits := x.toBits.toBitVec

theorem toNat_unpackMantissa (b : BitVec Format.binary64.numBits) :
    (unpackMantissa b).toNat = b.toNat % hidden := by
  unfold unpackMantissa
  simp [hidden]

theorem toNat_unpackExponent (b : BitVec Format.binary64.numBits) :
    (unpackExponent b).toNat = b.toNat / hidden % 0x800 := by
  unfold unpackExponent
  simp [hidden, Nat.shiftRight_eq_div_pow]

theorem steps_eq (x : Float) : steps x =
    if (unpackExponent (bits x)).toNat = 0 then (unpackMantissa (bits x)).toNat
    else ((unpackMantissa (bits x)).toNat + hidden) *
      2 ^ ((unpackExponent (bits x)).toNat - 1) := by
  have hbits : (bits x).toNat = x.toBits.toNat := rfl
  rw [toNat_unpackMantissa, toNat_unpackExponent, hbits]
  unfold steps Binary.ofFloat
  dsimp only
  by_cases h : x.toBits.toNat / hidden % 0x800 = 0
  · rw [if_pos h, if_pos (beq_iff_eq.mpr h)]
    exact Nat.mul_one _
  · rw [if_neg h, if_neg (mt beq_iff_eq.mp h)]
    dsimp only
    congr 2
    omega

theorem toNat_one_append (m : BitVec Format.binary64.mantissaBitsWithoutImplicit) :
    (1#1 ++ m).toNat = m.toNat + hidden := by
  rw [BitVec.toNat_append, ← Nat.shiftLeft_add_eq_or_of_lt m.isLt, Nat.add_comm]
  rfl

/-- An unpacked double has the magnitude of the double. -/
theorem hasSteps_unpack (x : Float) : HasSteps (steps x) x.toModel.unpack := by
  have hbias : (Format.binary64.exponentBias : Int) +
      Format.binary64.mantissaBitsWithoutImplicit = 1075 := by decide
  have hunpack : x.toModel.unpack = UnpackedFloat.unpack Format.binary64 (bits x) := rfl
  rw [steps_eq, hunpack]
  generalize bits x = b
  unfold UnpackedFloat.unpack
  dsimp only
  rw [hbias]
  by_cases htop : unpackExponent b = topExponent
  · have hnat : (unpackExponent b).toNat = 2047 := by rw [htop]; rfl
    have hbound : halfStep < ((unpackMantissa b).toNat + hidden) * 2 ^ (2047 - 1) :=
      Nat.lt_of_lt_of_le (by decide +kernel)
        (Nat.mul_le_mul_right _ (Nat.le_add_left hidden _))
    rw [if_pos htop, hnat, if_neg (by decide)]
    split <;> exact hbound
  · rw [if_neg htop]
    by_cases hlow : unpackExponent b = BitVec.ofNat _ 0
    · have hnat : (unpackExponent b).toNat = 0 := by rw [hlow]; rfl
      rw [if_pos hlow, hnat, if_pos rfl]
      by_cases hzero : unpackMantissa b = BitVec.ofNat _ 0
      · rw [dif_pos hzero, hzero]
        rfl
      · rw [dif_neg hzero]
        exact ⟨by decide, (Nat.mul_one _).symm⟩
    · have hne : (unpackExponent b).toNat ≠ 0 := fun h => hlow (BitVec.eq_of_toNat_eq h)
      rw [if_neg hlow, if_neg hne, ← toNat_one_append]
      refine ⟨by omega, ?_⟩
      congr 2
      omega

theorem beq_zero_iff (x : Float) : (x == 0) = true ↔ steps x = 0 := by
  have hsteps := hasSteps_unpack x
  have hgreat (h : halfStep < steps x) : steps x ≠ 0 := (Nat.lt_of_le_of_lt (Nat.zero_le _) h).ne'
  show (x.toModel.unpack.beq (.zero .positive)) = true ↔ steps x = 0
  cases hu : x.toModel.unpack with
  | infinity s =>
    rw [hu] at hsteps
    exact iff_of_false (by cases s <;> decide) (hgreat hsteps)
  | notANumber =>
    rw [hu] at hsteps
    exact iff_of_false (by decide) (hgreat hsteps)
  | zero s =>
    rw [hu] at hsteps
    exact iff_of_true rfl hsteps
  | finite s m e hm =>
    rw [hu] at hsteps
    rw [hsteps.2]
    refine iff_of_false ?_ (Nat.mul_pos hm (Nat.two_pow_pos _)).ne'
    cases s <;> exact Bool.false_ne_true

/-! ## Rounding to zero -/

theorem stickyBit_shiftRight (m k : Nat) :
    (ExtendedMantissa.ofMantissaAndAccuracy m .exact >>> (k + 1)).stickyBit =
      (m % 2 ^ k != 0) := by
  induction k with
  | zero =>
    rw [Nat.pow_zero, Nat.mod_one]
    rfl
  | succ k ih =>
    -- One place further, the round bit joins the sticky one.
    have hstep : (ExtendedMantissa.ofMantissaAndAccuracy m .exact >>> (k + 1 + 1)).stickyBit =
        ((ExtendedMantissa.ofMantissaAndAccuracy m .exact >>> (k + 1)).roundBit ||
          (ExtendedMantissa.ofMantissaAndAccuracy m .exact >>> (k + 1)).stickyBit) := rfl
    have hmantissa : (ExtendedMantissa.ofMantissaAndAccuracy m .exact).mantissa = m := rfl
    rw [hstep, roundBit_shiftRight, ih, hmantissa, Nat.mod_pow_succ]
    cases Nat.mod_two_eq_zero_or_one (m / 2 ^ k) <;> simp_all

theorem roundedMantissa_eq_zero_iff (em : ExtendedMantissa) :
    em.roundedMantissa = 0 ↔ em.mantissa = 0 ∧ ¬ (em.roundBit ∧ em.stickyBit) := by
  obtain ⟨m, r, s⟩ := em
  cases r <;> cases s <;>
    simp only [ExtendedMantissa.roundedMantissa, ExtendedMantissa.accuracy,
      Accuracy.roundToNearestEven] <;>
    simp
  omega

/-- After a shift by some places an exact mantissa rounds to zero iff at most half a unit is
    left. -/
theorem roundedMantissa_shift_eq_zero_iff (m k : Nat) :
    (ExtendedMantissa.ofMantissaAndAccuracy m .exact >>> (k + 1)).roundedMantissa = 0 ↔
      m ≤ 2 ^ k := by
  have hmantissa : (ExtendedMantissa.ofMantissaAndAccuracy m .exact).mantissa = m := rfl
  have hdecompose := Nat.div_add_mod m (2 ^ k)
  have hrest := Nat.mod_lt m (Nat.two_pow_pos k)
  rw [roundedMantissa_eq_zero_iff, mantissa_shiftRight, roundBit_shiftRight,
    stickyBit_shiftRight, hmantissa, Nat.pow_succ, ← Nat.div_div_eq_div_mul, bne_iff_ne,
    bne_iff_ne]
  -- The last bit of `q` is the round bit, and `r` is what the sticky bit stands for.
  generalize m / 2 ^ k = q at *
  generalize m % 2 ^ k = r at *
  generalize 2 ^ k = p at *
  rcases Nat.lt_or_ge q 2 with hq | hq
  · obtain rfl | rfl : q = 0 ∨ q = 1 := by omega
    all_goals omega
  · refine iff_of_false (by omega) (Nat.not_le.mpr ?_)
    have := Nat.mul_le_mul_left p hq
    omega

theorem shiftedRounded_eq_zero_iff {m : Nat} (hm : 0 < m) (e : Int) :
    shiftedRounded m e = 0 ↔ e < -1074 ∧ m ≤ 2 ^ (-1075 - e).toNat := by
  have hlow : 2 ^ m.log2 ≤ m := Nat.log2_self_le hm.ne'
  unfold shiftedRounded
  rcases Nat.lt_or_ge m.log2 (roundingShift m e) with hlost | hkept
  · -- No bit is left, so the shift is the one that the least step asks for.
    have hshift : roundingShift m e = (-1075 - e).toNat + 1 ∧ e < -1074 := by
      unfold roundingShift at *
      omega
    rw [hshift.1, roundedMantissa_shift_eq_zero_iff]
    exact (and_iff_right hshift.2).symm
  · -- The leading bit is left, and rounding does not take it away.
    have hmantissa : 0 < m / 2 ^ roundingShift m e :=
      Nat.div_pos (Nat.le_trans (Nat.pow_le_pow_right (by decide) hkept) hlow)
        (Nat.two_pow_pos _)
    have hround := (roundedMantissa_bounds
      (ExtendedMantissa.ofMantissaAndAccuracy m .exact >>> roundingShift m e)).1
    rw [mantissa_shiftRight] at hround
    refine iff_of_false (Nat.lt_of_lt_of_le hmantissa hround).ne' ?_
    rintro ⟨he, hle⟩
    have hlt : (-1075 - e).toNat < m.log2 := by
      unfold roundingShift at hkept
      omega
    exact absurd (Nat.pow_lt_pow_right (by decide) hlt) (Nat.not_lt.mpr (hlow.trans hle))

/-- The square of an exact value rounds to zero iff it is at most half a step. -/
theorem shiftedRounded_square_eq_zero_iff {m : Nat} (hm : 0 < m) {e : Int} (he : -1074 ≤ e) :
    shiftedRounded (m * m) (e + e) = 0 ↔ (m * 2 ^ (e + 1074).toNat) ^ 2 ≤ halfStep := by
  obtain ⟨a, rfl⟩ : ∃ a : Nat, e = a - 1074 := ⟨(e + 1074).toNat, by omega⟩
  have hexponent : ((a : Int) - 1074 + 1074).toNat = a := by omega
  have hsquare : (m * 2 ^ a) ^ 2 = m * m * 2 ^ (2 * a) := by
    rw [Nat.mul_pow, ← Nat.pow_mul, Nat.pow_two, Nat.mul_comm a]
  rw [shiftedRounded_eq_zero_iff (Nat.mul_pos hm hm), hexponent, hsquare]
  rcases Nat.lt_or_ge (2 * a) 1074 with hsmall | hgreat
  · have hhalf : halfStep = 2 ^ (1073 - 2 * a) * 2 ^ (2 * a) := by
      rw [halfStep_eq, ← Nat.pow_add, Nat.sub_add_cancel (by omega)]
    have hleft : (-1075 - ((a : Int) - 1074 + (a - 1074))).toNat = 1073 - 2 * a := by omega
    rw [hhalf, hleft, Nat.mul_le_mul_right_iff (Nat.two_pow_pos _)]
    exact and_iff_right (by omega)
  · refine iff_of_false (by omega) (Nat.not_le.mpr ?_)
    calc halfStep < 2 ^ 1074 := by decide +kernel
      _ ≤ 2 ^ (2 * a) := Nat.pow_le_pow_right (by decide) hgreat
      _ ≤ m * m * 2 ^ (2 * a) := Nat.le_mul_of_pos_left _ (Nat.mul_pos hm hm)

/-! ## Positive values -/

/-- A positive value of a step or more, or what overflow makes of one. -/
def Positive : UnpackedFloat → Prop
  | .finite .positive _ e _ => -1074 ≤ e
  | .infinity .positive | .notANumber => True
  | _ => False

theorem positive_unpack {b : BitVec Format.binary64.numBits}
    (hsign : unpackSign b = Sign.positive.toBitVec) (htop : unpackExponent b ≠ topExponent)
    (hne : unpackExponent b ≠ BitVec.ofNat _ 0 ∨ unpackMantissa b ≠ BitVec.ofNat _ 0) :
    Positive (UnpackedFloat.unpack Format.binary64 b) := by
  have hbias : (Format.binary64.exponentBias : Int) +
      Format.binary64.mantissaBitsWithoutImplicit = 1075 := by decide
  unfold UnpackedFloat.unpack
  dsimp only
  rw [hbias, hsign, if_neg htop]
  by_cases hzero : unpackExponent b = BitVec.ofNat _ 0
  · rw [if_pos hzero, dif_neg (hne.resolve_left (not_not_intro hzero))]
    show (-1074 : Int) ≤ (unpackExponent b).toNat - 1075 + 1
    omega
  · have hnat : (unpackExponent b).toNat ≠ 0 := fun h => hzero (BitVec.eq_of_toNat_eq h)
    rw [if_neg hzero]
    show (-1074 : Int) ≤ (unpackExponent b).toNat - 1075
    omega

/-- What fits the format stays positive when it is packed. -/
theorem positive_unpack_pack {m : Nat} {e : Int} (hm : 0 < m) (hlt : m < 2 ^ 53)
    (he : -1074 ≤ e) : Positive (Float.Model.pack (.finite .positive m e hm)).unpack := by
  show Positive (UnpackedFloat.unpack Format.binary64
    (UnpackedFloat.pack Format.binary64 (.finite .positive m e hm)))
  rw [pack_finite]
  by_cases hgreat : 972 ≤ e
  · rw [if_pos hgreat]
    trivial
  rw [if_neg hgreat]
  by_cases hlead : m.log2 + 1 = Format.binary64.mantissaBits
  · -- A normal double, of which the exponent is neither the lowest nor the highest.
    have hexponent : (BitVec.ofNat Format.binary64.exponentBits (e + 1075).toNat).toNat =
        (e + 1075).toNat := by
      rw [BitVec.toNat_ofNat]
      exact Nat.mod_eq_of_lt (by show _ < 2048; omega)
    rw [if_pos hlead]
    refine positive_unpack (unpackSign_packComponents _ _ _) ?_ (Or.inl ?_)
    · rw [unpackExponent_packComponents]
      intro h
      have htop : (topExponent).toNat = 2047 := by decide
      rw [h, htop] at hexponent
      omega
    · rw [unpackExponent_packComponents]
      intro h
      rw [h, BitVec.toNat_ofNat, Nat.zero_mod] at hexponent
      omega
  · -- A subnormal double, of which the mantissa is not zero.
    have hsmall : m < 2 ^ 52 := by
      refine (Nat.log2_lt hm.ne').mp ?_
      have := (Nat.log2_lt hm.ne').mpr hlt
      rw [mantissaBits_binary64] at hlead
      omega
    rw [if_neg hlead]
    refine positive_unpack (unpackSign_packComponents _ _ _) ?_ (Or.inr ?_)
    · rw [unpackExponent_packComponents]
      decide
    · rw [unpackMantissa_packComponents]
      intro h
      have hnat : (BitVec.ofNat Format.binary64.mantissaBitsWithoutImplicit m).toNat = m := by
        rw [BitVec.toNat_ofNat]
        exact Nat.mod_eq_of_lt hsmall
      rw [h, BitVec.toNat_ofNat, Nat.zero_mod] at hnat
      omega

/-- The mantissa of a value that is rounded, after the shift. -/
def firstRounded (m : Nat) (e : Int) (a : Accuracy) : Nat :=
  (ExtendedMantissa.ofMantissaAndAccuracy m a >>> roundingShift m e).roundedMantissa

theorem firstRounded_bounds (m : Nat) (e : Int) (a : Accuracy) :
    m / 2 ^ roundingShift m e ≤ firstRounded m e a ∧ firstRounded m e a ≤ 2 ^ 53 := by
  have hmantissa : (ExtendedMantissa.ofMantissaAndAccuracy m a).mantissa = m := by
    unfold ExtendedMantissa.ofMantissaAndAccuracy
    split <;> rfl
  have hround := roundedMantissa_bounds
    (ExtendedMantissa.ofMantissaAndAccuracy m a >>> roundingShift m e)
  rw [mantissa_shiftRight, hmantissa] at hround
  exact ⟨hround.1, Nat.le_trans hround.2 (mantissa_shift_lt m e)⟩

/-- A rounded value is zero or fits the format. -/
theorem roundWithAccuracy_cases (s : Sign) (m : Nat) (e : Int) (a : Accuracy) :
    (firstRounded m e a = 0 ∧ roundWithAccuracy Format.binary64 s m e a = .zero s) ∨
      (firstRounded m e a ≠ 0 ∧ ∃ r e' h,
        roundWithAccuracy Format.binary64 s m e a = .finite s r e' h ∧ r < 2 ^ 53 ∧
          -1074 ≤ e') := by
  have hmin : -1074 ≤ e + roundingShift m e := by
    unfold roundingShift
    omega
  have hmantissa : (ExtendedMantissa.ofMantissaAndAccuracy (firstRounded m e a) .exact).mantissa =
      firstRounded m e a := rfl
  -- The second shift only takes back a carry, so it makes nothing zero.
  have hzero : firstRounded m e a / 2 ^ roundingShift (firstRounded m e a)
      (e + roundingShift m e) = 0 ↔ firstRounded m e a = 0 := by
    rw [roundingShift_of_le (firstRounded_bounds m e a).2 hmin]
    split <;> omega
  unfold roundWithAccuracy
  rw [shiftToTargetExponent_eq]
  dsimp only
  rw [show ExtendedMantissa.roundedMantissa _ = firstRounded m e a from rfl,
    shiftToTargetExponent_eq]
  dsimp only
  simp only [mantissa_shiftRight, hmantissa]
  split
  · rename_i h
    exact Or.inl ⟨hzero.mp h, rfl⟩
  · rename_i h
    refine Or.inr ⟨mt hzero.mpr h, _, _, Nat.pos_of_ne_zero h, rfl, mantissa_shift_lt _ _, ?_⟩
    unfold roundingShift at *
    omega

/-- A value of a step or more does not round to zero. -/
theorem positive_round {m : Nat} {e : Int} (hm : 0 < m) (he : -1074 ≤ e) (a : Accuracy) :
    Positive (Float.Model.pack
      (roundWithAccuracy Format.binary64 .positive m e a)).unpack := by
  rcases roundWithAccuracy_cases .positive m e a with ⟨hzero, -⟩ | ⟨-, r, e', hr, hround, hlt, he'⟩
  · have hkept : roundingShift m e ≤ m.log2 := by
      unfold roundingShift
      omega
    have hpos : 0 < m / 2 ^ roundingShift m e :=
      Nat.div_pos (Nat.le_trans (Nat.pow_le_pow_right (by decide) hkept)
        (Nat.log2_self_le hm.ne')) (Nat.two_pow_pos _)
    exact absurd hzero (Nat.lt_of_lt_of_le hpos (firstRounded_bounds m e a).1).ne'
  · rw [hround]
    exact positive_unpack_pack hr hlt he'

theorem positive_normalize {n : Int} {e : Int} (hn : 0 < n) (he : -1074 ≤ e) :
    Positive (Float.Model.pack (UnpackedFloat.normalize Format.binary64 n e .positive)).unpack := by
  have hcompare : compare n 0 = .gt := Int.compare_eq_gt.mpr hn
  unfold UnpackedFloat.normalize
  rw [hcompare]
  unfold UnpackedFloat.round decreaseExponent
  dsimp only
  rw [targetExponent_binary64]
  refine positive_round ?_ (by omega) .exact
  rw [Nat.shiftLeft_eq]
  exact Nat.mul_pos (by omega) (Nat.two_pow_pos _)

/-! ## Squares, sums and roots -/

/-- A value that is zero where it has vanished, and positive where it has not. -/
def Weighed (vanished : Prop) (u : UnpackedFloat) : Prop :=
  (vanished ∧ ∃ s, u = .zero s) ∨ (¬ vanished ∧ Positive u)

theorem unpack_pack_unpack (x : Float) :
    (Float.Model.pack x.toModel.unpack).unpack = x.toModel.unpack :=
  congrArg (UnpackedFloat.unpack Format.binary64)
    (UnpackedFloat.pack_unpack_of_valid x.toModel.valid)

/-- A square vanishes where it is at most half a step. -/
theorem weighed_square (x : Float) :
    Weighed (steps x ^ 2 ≤ halfStep) (x * x).toModel.unpack := by
  have hsteps := hasSteps_unpack x
  show Weighed _ (Float.Model.pack
    (UnpackedFloat.mul Format.binary64 x.toModel.unpack x.toModel.unpack)).unpack
  have hsign (s : Sign) : s * s = .positive := by cases s <;> rfl
  have hgreat (h : halfStep < steps x) : ¬ steps x ^ 2 ≤ halfStep :=
    Nat.not_le.mpr (Nat.lt_of_lt_of_le h (Nat.le_self_pow (by decide) _))
  cases hu : x.toModel.unpack with
  | infinity s =>
    rw [hu] at hsteps
    show Weighed _ (Float.Model.pack (.infinity (s * s))).unpack
    rw [hsign]
    exact Or.inr ⟨hgreat hsteps, trivial⟩
  | notANumber =>
    rw [hu] at hsteps
    exact Or.inr ⟨hgreat hsteps, trivial⟩
  | zero s =>
    rw [hu] at hsteps
    show Weighed _ (Float.Model.pack (.zero (s * s))).unpack
    rw [unpack_pack_zero, show steps x = 0 from hsteps]
    exact Or.inl ⟨Nat.zero_le _, _, rfl⟩
  | finite s m e hm =>
    rw [hu] at hsteps
    obtain ⟨he, hsteps⟩ := hsteps
    show Weighed _ (Float.Model.pack
      (roundWithAccuracy Format.binary64 (s * s) (m * m) (e + e) .exact)).unpack
    rw [hsign, hsteps, ← shiftedRounded_square_eq_zero_iff hm he]
    rcases roundWithAccuracy_cases .positive (m * m) (e + e) .exact with
      ⟨hzero, hround⟩ | ⟨hne, r, e', hr, hround, hlt, he'⟩
    · rw [hround, unpack_pack_zero]
      exact Or.inl ⟨hzero, _, rfl⟩
    · rw [hround]
      exact Or.inr ⟨hne, positive_unpack_pack hr hlt he'⟩

/-- Adding zero changes nothing. -/
theorem zero_add_positive (s : Sign) {u : UnpackedFloat} (hu : Positive u) :
    UnpackedFloat.add Format.binary64 (.zero s) u = u := by
  cases u with
  | zero t => cases hu
  | infinity t => rfl
  | notANumber => rfl
  | finite t m e hm => rfl

theorem positive_add_zero (s : Sign) {u : UnpackedFloat} (hu : Positive u) :
    UnpackedFloat.add Format.binary64 u (.zero s) = u := by
  cases u with
  | zero t => cases hu
  | infinity t => rfl
  | notANumber => rfl
  | finite t m e hm => rfl

theorem positive_pack_notANumber : Positive (Float.Model.pack .notANumber).unpack := trivial

theorem positive_pack_infinity : Positive (Float.Model.pack (.infinity .positive)).unpack := trivial

theorem positive_add {u v : UnpackedFloat} (hu : Positive u) (hv : Positive v) :
    Positive (Float.Model.pack (UnpackedFloat.add Format.binary64 u v)).unpack := by
  match u, v, hu, hv with
  | .notANumber, .notANumber, _, _ => exact positive_pack_notANumber
  | .notANumber, .infinity .positive, _, _ => exact positive_pack_notANumber
  | .notANumber, .finite .positive _ _ _, _, _ => exact positive_pack_notANumber
  | .infinity .positive, .notANumber, _, _ => exact positive_pack_notANumber
  | .infinity .positive, .infinity .positive, _, _ => exact positive_pack_infinity
  | .infinity .positive, .finite .positive _ _ _, _, _ => exact positive_pack_infinity
  | .finite .positive _ _ _, .notANumber, _, _ => exact positive_pack_notANumber
  | .finite .positive _ _ _, .infinity .positive, _, _ => exact positive_pack_infinity
  | .finite .positive m e hm, .finite .positive n f hn, he, hf =>
    refine positive_normalize ?_ (le_min he hf)
    have hm' : 0 < m <<< (e - min e f).toNat := by
      rw [Nat.shiftLeft_eq]
      exact Nat.mul_pos hm (Nat.two_pow_pos _)
    have hn' : 0 < n <<< (f - min e f).toNat := by
      rw [Nat.shiftLeft_eq]
      exact Nat.mul_pos hn (Nat.two_pow_pos _)
    show (0 : Int) < ((m <<< (e - min e f).toNat : Nat) : Int) + (n <<< (f - min e f).toNat : Nat)
    omega

theorem weighed_add {x y : Float} {p q : Prop} (hx : Weighed p x.toModel.unpack)
    (hy : Weighed q y.toModel.unpack) : Weighed (p ∧ q) (x + y).toModel.unpack := by
  show Weighed _ (Float.Model.pack
    (UnpackedFloat.add Format.binary64 x.toModel.unpack y.toModel.unpack)).unpack
  rcases hx with ⟨hp, s, hs⟩ | ⟨hp, hpos⟩ <;> rcases hy with ⟨hq, t, ht⟩ | ⟨hq, hpos'⟩
  · rw [hs, ht]
    refine Or.inl ⟨⟨hp, hq⟩, if s == t then s else .positive, ?_⟩
    cases s <;> cases t <;> exact unpack_pack_zero _
  · rw [hs, zero_add_positive s hpos', unpack_pack_unpack]
    exact Or.inr ⟨fun h => hq h.2, hpos'⟩
  · rw [ht, positive_add_zero t hpos, unpack_pack_unpack]
    exact Or.inr ⟨fun h => hp h.1, hpos⟩
  · exact Or.inr ⟨fun h => hp h.1, positive_add hpos hpos'⟩

theorem weighed_sqrt {x : Float} {p : Prop} (hx : Weighed p x.toModel.unpack) :
    Weighed p x.sqrt.toModel.unpack := by
  show Weighed _ (Float.Model.pack
    (UnpackedFloat.sqrt Format.binary64 x.toModel.unpack)).unpack
  rcases hx with ⟨hp, s, hs⟩ | ⟨hp, hpos⟩
  · rw [hs]
    exact Or.inl ⟨hp, s, unpack_pack_zero s⟩
  · refine Or.inr ⟨hp, ?_⟩
    match x.toModel.unpack, hpos with
    | .notANumber, _ => exact positive_pack_notANumber
    | .infinity .positive, _ => exact positive_pack_infinity
    | .finite .positive m e hm, he =>
      have he' : -1074 ≤ e := he
      refine positive_round (Nat.sqrt_pos.mpr ?_) ?_ _
      · rw [Nat.shiftLeft_eq]
        exact Nat.mul_pos hm (Nat.two_pow_pos _)
      · rw [targetExponent_binary64]
        have hhalf : (-1074 : Int) ≤ e.ediv 2 := by
          show -1074 ≤ e / 2
          omega
        omega

theorem beq_zero_of_weighed {x : Float} {p : Prop} (hx : Weighed p x.toModel.unpack) :
    (x == 0) = true ↔ p := by
  show (x.toModel.unpack.beq (.zero .positive)) = true ↔ p
  rcases hx with ⟨hp, s, hs⟩ | ⟨hp, hpos⟩
  · rw [hs]
    exact iff_of_true rfl hp
  · refine iff_of_false ?_ hp
    match x.toModel.unpack, hpos with
    | .notANumber, _ => decide
    | .infinity .positive, _ => decide
    | .finite .positive _ _ _, _ => exact Bool.false_ne_true

end SourceAtlas.Number
