import SourceAtlas.Proofs.Number.Underflow
import SourceAtlas.Vector.Single

/-!
# Doubles as singles

A double is stored as the nearest single. That single is zero where the double is at most half the
least single. Read back it is a double that is the same number, and no single but zero is so small
that its square vanishes.

Results:
* `magnitude_ofFloat_eq_zero_iff`: which doubles are stored as zero.
* `steps_toFloat`: what a single is as a double.
* `toFloat_beq_zero_iff`, `halfStep_lt_square`: zero singles, and the squares of all others.
-/

namespace SourceAtlas.Single

open Number
open Float.Model
open Float.Model.UnpackedFloat

/-! ## Rounding to zero -/

/-- Half the least single, in steps of the least double. -/
def halfLeast : Nat := Nat.pow 2 924

theorem halfLeast_eq : halfLeast = 2 ^ 924 := by decide +kernel

theorem halfLeast_lt_halfStep : halfLeast < halfStep := by decide +kernel

/-- What is left of a mantissa after a shift by some places rounds to zero iff it is at most half a
    unit. -/
theorem roundedShift_eq_zero_iff (m k : Nat) : roundedShift m (k + 1) = 0 ↔ m ≤ 2 ^ k := by
  have hscale : Nat.pow 2 (k + 1) = 2 * 2 ^ k := Nat.pow_succ'
  have hpos := Nat.two_pow_pos k
  unfold roundedShift
  rw [hscale]
  dsimp only
  rcases Nat.lt_or_ge m (2 * 2 ^ k) with hlt | hge
  · rw [Nat.div_eq_of_lt hlt, Nat.mod_eq_of_lt hlt]
    simp
  · have hq := Nat.div_pos hge (Nat.mul_pos Nat.two_pos hpos)
    exact iff_of_false (by omega) (by omega)

theorem power_ofFloat (x : Float) : -1074 ≤ (Binary.ofFloat x).power ∧
    (-1074 < (Binary.ofFloat x).power → Number.hidden ≤ (Binary.ofFloat x).mantissa) := by
  unfold Binary.ofFloat
  dsimp only
  split
  · exact ⟨le_refl _, fun h => absurd h (lt_irrefl _)⟩
  · rename_i h
    have hne := mt beq_iff_eq.mpr h
    exact ⟨by dsimp only; omega, fun _ => Nat.le_add_left _ _⟩

/-- A double is nearest to zero iff it is at most half the least single. -/
theorem nearest_eq_zero_iff (x : Float) : nearest (.ofFloat x) = 0 ↔ steps x ≤ halfLeast := by
  obtain ⟨hlow, hnormal⟩ := power_ofFloat x
  unfold nearest steps
  generalize (Binary.ofFloat x).mantissa = m at *
  generalize (Binary.ofFloat x).power = e at *
  rw [Nat.min_eq_zero_iff, or_iff_left (by decide), Nat.add_eq_zero_iff, halfLeast_eq]
  rcases le_or_gt e (-178) with hsmall | hgreat
  · -- The last bit of the single counts as much as it can.
    have hunit : (max (e + 29) (-149) + 149).toNat * step = 0 := by
      rw [max_eq_right (by omega)]
      rfl
    have hshift : (max (e + 29) (-149) - e).toNat = (-150 - e).toNat + 1 := by omega
    have hsum : (-150 - e).toNat + (e + 1074).toNat = 924 := by omega
    rw [hshift, roundedShift_eq_zero_iff, ← hsum, Nat.pow_add,
      Nat.mul_le_mul_right_iff (Nat.two_pow_pos _)]
    exact and_iff_right hunit
  · have hunit : 0 < (max (e + 29) (-149) + 149).toNat * step :=
      Nat.mul_pos (by omega) (by decide)
    refine iff_of_false (fun h => hunit.ne' h.1) (Nat.not_le.mpr ?_)
    calc 2 ^ 924 < Number.hidden * 2 ^ 897 := by decide +kernel
      _ ≤ m * 2 ^ (e + 1074).toNat :=
        Nat.mul_le_mul (hnormal (by omega)) (Nat.pow_le_pow_right (by decide) (by omega))

theorem infinite_lt : infinite < 0x80000000 := by decide

/-- The bits of a single without its sign. -/
def magnitude (s : Single) : Nat := s.toNat % 0x80000000

theorem magnitude_ofFloat (x : Float) : (ofFloat x).magnitude =
    if x.isNaN then 0x7FC00000 else if x.isInf then infinite else nearest (.ofFloat x) := by
  have hle : nearest (.ofFloat x) ≤ infinite := Nat.min_le_right _ _
  have hlt := infinite_lt
  unfold magnitude ofFloat
  split
  · decide
  · dsimp only
    rw [UInt32.toNat_ofNat']
    split <;> split <;> omega

/-- **Doubles that are stored as zero.** A double is stored as zero iff it is at most half the least
    single. -/
theorem magnitude_ofFloat_eq_zero_iff (x : Float) :
    (ofFloat x).magnitude = 0 ↔ steps x ≤ halfLeast := by
  have hsteps := hasSteps_unpack x
  have hgreat (h : halfStep < steps x) : ¬ steps x ≤ halfLeast :=
    Nat.not_le.mpr (halfLeast_lt_halfStep.trans h)
  rw [magnitude_ofFloat]
  cases hu : x.toModel.unpack with
  | notANumber =>
    have hnan : x.isNaN = true := congrArg UnpackedFloat.isNaN hu
    rw [hu] at hsteps
    rw [if_pos hnan]
    exact iff_of_false (by decide) (hgreat hsteps)
  | infinity s =>
    have hnan : x.isNaN = false := congrArg UnpackedFloat.isNaN hu
    have hinf : x.isInf = true := congrArg UnpackedFloat.isInf hu
    rw [hu] at hsteps
    rw [hnan, if_neg Bool.false_ne_true, if_pos hinf]
    exact iff_of_false (by decide) (hgreat hsteps)
  | zero s | finite s m e hm =>
    have hnan : x.isNaN = false := congrArg UnpackedFloat.isNaN hu
    have hinf : x.isInf = false := congrArg UnpackedFloat.isInf hu
    rw [hnan, hinf, if_neg Bool.false_ne_true, if_neg Bool.false_ne_true]
    exact nearest_eq_zero_iff x

/-! ## Singles as doubles -/

/-- The exponent of a finite single is not all ones. -/
theorem isFinite_iff (s : Single) : s.isFinite = true ↔ s.magnitude / step < 0xFF := by
  have hbits : (s >>> 23 &&& 0xFF).toNat = s.toNat / 2 ^ 23 % 2 ^ 8 := by
    rw [UInt32.toNat_and, UInt32.toNat_shiftRight, Nat.shiftRight_eq_div_pow]
    exact Nat.and_two_pow_sub_one_eq_mod _ 8
  unfold isFinite magnitude step
  rw [bne_iff_ne, Ne, ← UInt32.toNat_inj, hbits]
  show ¬ _ = 255 ↔ _
  omega

/-- The bits of a double whose exponent is not all ones are kept. -/
theorem toBits_ofBits {b : UInt64} (h : b.toNat / Number.hidden % 0x800 ≠ 0x7FF) :
    (Float.ofBits b).toBits = b := by
  have hvalid : Format.binary64.Valid b.toBitVec := by
    refine ⟨fun htop => ?_⟩
    have hnat := toNat_unpackExponent b.toBitVec
    rw [htop] at hnat
    exact absurd hnat.symm h
  show UInt64.ofBitVec (UnpackedFloat.pack Format.binary64
    (UnpackedFloat.unpack Format.binary64 b.toBitVec)) = b
  rw [UnpackedFloat.pack_unpack_of_valid hvalid]

/-- The mantissa of a finite magnitude, with its leading bit. -/
def significand (magnitude : Nat) : Nat :=
  if magnitude / step = 0 then magnitude % step else magnitude % step + step

theorem significand_eq_zero_iff (magnitude : Nat) : significand magnitude = 0 ↔ magnitude = 0 := by
  unfold significand step
  split <;> omega

theorem significand_lt (magnitude : Nat) : significand magnitude < 2 ^ 24 := by
  unfold significand step
  split <;> omega

theorem log2_significand_le {n : Nat} (hn : n ≠ 0) : (significand n).log2 ≤ 23 :=
  Nat.le_of_lt_succ ((Nat.log2_lt (mt (significand_eq_zero_iff n).mp hn)).mpr (significand_lt n))

/-- The fields of the double that is the same number. -/
theorem widened_fields {n : Nat} (h : n / step < 0xFF) (hn : n ≠ 0) :
    widened n / Number.hidden = max (n / step) 1 + (significand n).log2 + 873 ∧
      widened n % Number.hidden + Number.hidden =
        significand n * 2 ^ (52 - (significand n).log2) := by
  have hne : significand n ≠ 0 := mt (significand_eq_zero_iff n).mp hn
  have hmantissa : (if n / step == 0 then n % step else n % step + step) = significand n := by
    simp only [significand, beq_iff_eq]
  have htop := log2_significand_le hn
  -- The leading bit of the mantissa comes to stand just above the fraction.
  have hlow : Number.hidden ≤ significand n * 2 ^ (52 - (significand n).log2) := by
    have hself := Nat.mul_le_mul_right (2 ^ (52 - (significand n).log2)) (Nat.log2_self_le hne)
    rwa [← Nat.pow_add, Nat.add_sub_cancel' (by omega)] at hself
  have hhigh : significand n * 2 ^ (52 - (significand n).log2) < 2 * Number.hidden := by
    have hself := Nat.mul_lt_mul_of_pos_right (Nat.lt_log2_self (n := significand n))
      (Nat.two_pow_pos (52 - (significand n).log2))
    rw [← Nat.pow_add, Nat.add_right_comm, Nat.add_sub_cancel' (by omega)] at hself
    exact hself
  unfold widened
  dsimp only
  rw [if_neg (by simp only [beq_iff_eq]; omega), hmantissa, if_neg (by simpa using hne)]
  show (_ * Number.hidden + significand n * 2 ^ (52 - (significand n).log2)) / _ = _ ∧
    (_ * Number.hidden + significand n * 2 ^ (52 - (significand n).log2)) % _ + _ = _
  generalize significand n * 2 ^ (52 - (significand n).log2) = w at *
  unfold Number.hidden at *
  omega

theorem widened_zero : widened 0 = 0 := by decide

/-- The exponent of such a double is not all ones, and its sign is not set. -/
theorem widened_lt {n : Nat} (h : n / step < 0xFF) : widened n < 0x7FF * Number.hidden := by
  rcases Nat.eq_zero_or_pos n with rfl | hn
  · rw [widened_zero]
    decide
  · have hfields := (widened_fields h hn.ne').1
    have htop := log2_significand_le hn.ne'
    rw [← Nat.div_lt_iff_lt_mul (by decide)]
    omega

section ToFloat

variable {s : Single} (h : s.isFinite = true)

include h

/-- The bits of a finite single as a double. -/
theorem toNat_toBits_toFloat : s.toFloat.toBits.toNat =
    widened s.magnitude + if 0x80000000 ≤ s.toNat then 0x8000000000000000 else 0 := by
  have hlt := widened_lt ((isFinite_iff s).mp h)
  have hnat : (UInt64.ofNat (widened s.magnitude +
      if 0x80000000 ≤ s.toNat then 0x8000000000000000 else 0)).toNat =
        widened s.magnitude + if 0x80000000 ≤ s.toNat then 0x8000000000000000 else 0 := by
    rw [UInt64.toNat_ofNat']
    unfold Number.hidden at hlt
    split <;> omega
  have hexponent : (UInt64.ofNat (widened s.magnitude +
      if 0x80000000 ≤ s.toNat then 0x8000000000000000 else 0)).toNat / Number.hidden % 0x800 ≠
        0x7FF := by
    rw [hnat]
    unfold Number.hidden at *
    split <;> omega
  exact (congrArg UInt64.toNat (toBits_ofBits hexponent)).trans hnat

/-- A finite single is the same number as a double. -/
theorem steps_toFloat : steps s.toFloat =
    significand s.magnitude * 2 ^ (max (s.magnitude / step) 1 + 924) := by
  have hsign (w : Nat) : (w + if 0x80000000 ≤ s.toNat then 0x8000000000000000 else 0) %
      Number.hidden = w % Number.hidden ∧
    (w + if 0x80000000 ≤ s.toNat then 0x8000000000000000 else 0) / Number.hidden % 0x800 =
      w / Number.hidden % 0x800 := by
    unfold Number.hidden
    split <;> omega
  have hbits : (bits s.toFloat).toNat = s.toFloat.toBits.toNat := rfl
  rw [steps_eq, toNat_unpackExponent, toNat_unpackMantissa, hbits, toNat_toBits_toFloat h,
    (hsign _).1, (hsign _).2]
  by_cases hn : s.magnitude = 0
  · rw [hn, widened_zero, (significand_eq_zero_iff 0).mpr rfl, Nat.zero_div, Nat.zero_mod,
      Nat.zero_mod, if_pos rfl, Nat.zero_mul]
  · have hfinite := (isFinite_iff s).mp h
    obtain ⟨hexponent, hfraction⟩ := widened_fields hfinite hn
    have htop := log2_significand_le hn
    have hsum : 52 - (significand s.magnitude).log2 +
        (max (s.magnitude / step) 1 + (significand s.magnitude).log2 + 873 - 1) =
          max (s.magnitude / step) 1 + 924 := by omega
    rw [hexponent, Nat.mod_eq_of_lt (by omega), if_neg (by omega), hfraction, Nat.mul_assoc,
      ← Nat.pow_add, hsum]

/-- A finite single is finite as a double. -/
theorem below_toFloat : Below 1000 (UnpackedFloat.unpack Format.binary64 (bits s.toFloat)) := by
  have hlt := widened_lt ((isFinite_iff s).mp h)
  have hexponent : (unpackExponent (bits s.toFloat)).toNat < 2047 := by
    have hbits : (bits s.toFloat).toNat = s.toFloat.toBits.toNat := rfl
    rw [toNat_unpackExponent, hbits, toNat_toBits_toFloat h]
    unfold Number.hidden at *
    split <;> omega
  exact below_unpack (by decide) (by omega) hexponent

theorem isNaN_toFloat : s.toFloat.isNaN = false := by
  have hbelow := below_toFloat h
  show (UnpackedFloat.unpack Format.binary64 (bits s.toFloat)).isNaN = false
  cases hu : UnpackedFloat.unpack Format.binary64 (bits s.toFloat) with
  | zero t | finite t m e hm => rfl
  | infinity t | notANumber =>
    rw [hu] at hbelow
    cases hbelow

theorem isInf_toFloat : s.toFloat.isInf = false := (below_toFloat h).isInf

/-- A finite single is zero iff its magnitude is. -/
theorem toFloat_beq_zero_iff : (s.toFloat == 0) = true ↔ s.magnitude = 0 := by
  rw [beq_zero_iff, steps_toFloat h, Nat.mul_eq_zero, significand_eq_zero_iff,
    or_iff_left (Nat.two_pow_pos _).ne']

/-- The square of a finite single that is not zero does not vanish as a double. -/
theorem halfStep_lt_square (hne : s.magnitude ≠ 0) : halfStep < steps s.toFloat ^ 2 := by
  have hpos : 0 < significand s.magnitude :=
    Nat.pos_of_ne_zero (mt (significand_eq_zero_iff _).mp hne)
  have hsteps : 2 * halfLeast ≤ steps s.toFloat := by
    have hpow (k : Nat) : 2 * 2 ^ k ≤ 2 ^ (max (s.magnitude / step) 1 + k) := by
      rw [← Nat.pow_succ']
      exact Nat.pow_le_pow_right (by decide) (by omega)
    rw [steps_toFloat h, halfLeast_eq]
    exact (hpow 924).trans (Nat.le_mul_of_pos_left _ hpos)
  calc halfStep < (2 * halfLeast) ^ 2 := by decide +kernel
    _ ≤ steps s.toFloat ^ 2 := Nat.pow_le_pow_left hsteps 2

end ToFloat

end SourceAtlas.Single
