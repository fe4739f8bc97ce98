import SourceAtlas.Proofs.Number.Order
import SourceAtlas.Proofs.Number.Underflow

/-!
# Sums of squares that are numbers

A square of a number is a number, if only infinity, and so is a sum of values that are not negative,
and its root. So a root of a sum of squares is greater than zero wherever it has not vanished.

Results:
* `pack_round_ne`: rounding gives a number.
* `isNaN_square`, `isNaN_add`, `isNaN_sqrt`: the operations that a norm is made of.
* `pos_iff_of_weighed`: a number that is weighed is greater than zero iff it has not vanished.
-/

namespace SourceAtlas.Number

open Float.Model
open Float.Model.UnpackedFloat

theorem isNaN_eq_false_iff (x : Float) : x.isNaN = false ↔ x.toModel.unpack ≠ .notANumber := by
  refine ⟨unpack_ne_of_isNaN, fun h => ?_⟩
  show x.toModel.unpack.isNaN = false
  cases hu : x.toModel.unpack with
  | notANumber => exact absurd hu h
  | infinity s | zero s | finite s m e hm => rfl

/-! ## Packing -/

theorem pack_zero_ne (s : Sign) : (Float.Model.pack (.zero s)).unpack ≠ .notANumber := by
  rw [unpack_pack_zero]
  exact nofun

theorem unpack_packedInfinity (s : Sign) :
    UnpackedFloat.unpack Format.binary64 (packedInfinity Format.binary64 s) = .infinity s := by
  cases s <;> rfl

theorem pack_infinity_ne (s : Sign) : (Float.Model.pack (.infinity s)).unpack ≠ .notANumber := by
  have hunpack : (Float.Model.pack (.infinity s)).unpack = .infinity s := unpack_packedInfinity s
  rw [hunpack]
  exact nofun

theorem pack_finite_ne (s : Sign) (m : Nat) (e : Int) (hm : 0 < m) :
    (Float.Model.pack (.finite s m e hm)).unpack ≠ .notANumber := by
  by_cases he : 972 ≤ e
  · show UnpackedFloat.unpack Format.binary64
      (UnpackedFloat.pack Format.binary64 (.finite s m e hm)) ≠ _
    rw [pack_finite, if_pos he, unpack_packedInfinity]
    exact nofun
  · have hbelow : Below 971 (Float.Model.pack (.finite s m e hm)).unpack :=
      below_unpack_pack (by decide) (by decide) s m (by omega) hm
    intro hu
    rw [hu] at hbelow
    cases hbelow

/-- A value that is rounded stays a number. -/
theorem pack_round_ne (s : Sign) (m : Nat) (e : Int) (a : Accuracy) :
    (Float.Model.pack (roundWithAccuracy Format.binary64 s m e a)).unpack ≠ .notANumber := by
  rcases roundWithAccuracy_cases s m e a with ⟨-, hround⟩ | ⟨-, r, e', hr, hround, -, -⟩
  · rw [hround]
    exact pack_zero_ne s
  · rw [hround]
    exact pack_finite_ne s r e' hr

theorem pack_normalize_ne (n e : Int) :
    (Float.Model.pack (UnpackedFloat.normalize Format.binary64 n e .positive)).unpack ≠
      .notANumber := by
  unfold UnpackedFloat.normalize
  split
  · exact pack_round_ne _ _ _ _
  · exact pack_zero_ne _
  · exact pack_round_ne _ _ _ _

/-! ## Squares, sums and roots -/

theorem isNaN_square {x : Float} (h : x.isNaN = false) : (x * x).isNaN = false := by
  rw [isNaN_eq_false_iff] at h ⊢
  show (Float.Model.pack
    (UnpackedFloat.mul Format.binary64 x.toModel.unpack x.toModel.unpack)).unpack ≠ _
  cases hu : x.toModel.unpack with
  | notANumber => exact absurd hu h
  | infinity s => exact pack_infinity_ne _
  | zero s => exact pack_zero_ne _
  | finite s m e hm => exact pack_round_ne _ _ _ _

theorem pack_add_ne {u v : UnpackedFloat} (hu : Positive u) (hv : Positive v)
    (hun : u ≠ .notANumber) (hvn : v ≠ .notANumber) :
    (Float.Model.pack (UnpackedFloat.add Format.binary64 u v)).unpack ≠ .notANumber := by
  match u, v, hu, hv with
  | .notANumber, _, _, _ => exact absurd rfl hun
  | .infinity .positive, .notANumber, _, _ => exact absurd rfl hvn
  | .finite .positive _ _ _, .notANumber, _, _ => exact absurd rfl hvn
  | .infinity .positive, .infinity .positive, _, _ => exact pack_infinity_ne .positive
  | .infinity .positive, .finite .positive _ _ _, _, _ => exact pack_infinity_ne .positive
  | .finite .positive _ _ _, .infinity .positive, _, _ => exact pack_infinity_ne .positive
  | .finite .positive _ _ _, .finite .positive _ _ _, _, _ => exact pack_normalize_ne _ _

/-- A sum of numbers that are not negative is a number. -/
theorem isNaN_add {x y : Float} {p q : Prop} (hx : Weighed p x.toModel.unpack)
    (hy : Weighed q y.toModel.unpack) (h : x.isNaN = false) (h' : y.isNaN = false) :
    (x + y).isNaN = false := by
  rw [isNaN_eq_false_iff] at h h' ⊢
  show (Float.Model.pack
    (UnpackedFloat.add Format.binary64 x.toModel.unpack y.toModel.unpack)).unpack ≠ _
  rcases hx with ⟨-, s, hs⟩ | ⟨-, hpos⟩ <;> rcases hy with ⟨-, t, ht⟩ | ⟨-, hpos'⟩
  · rw [hs, ht]
    cases s <;> cases t <;> exact pack_zero_ne _
  · rw [hs, zero_add_positive s hpos', unpack_pack_unpack]
    exact h'
  · rw [ht, positive_add_zero t hpos, unpack_pack_unpack]
    exact h
  · exact pack_add_ne hpos hpos' h h'

theorem isNaN_sqrt {x : Float} {p : Prop} (hx : Weighed p x.toModel.unpack)
    (h : x.isNaN = false) : x.sqrt.isNaN = false := by
  rw [isNaN_eq_false_iff] at h ⊢
  show (Float.Model.pack (UnpackedFloat.sqrt Format.binary64 x.toModel.unpack)).unpack ≠ _
  rcases hx with ⟨-, s, hs⟩ | ⟨-, hpos⟩
  · rw [hs]
    exact pack_zero_ne s
  · match x.toModel.unpack, hpos, h with
    | .notANumber, _, h => exact absurd rfl h
    | .infinity .positive, _, _ => exact pack_infinity_ne .positive
    | .finite .positive m e hm, _, _ => exact pack_round_ne _ _ _ _

/-- A number that is weighed is greater than zero iff it has not vanished. -/
theorem pos_iff_of_weighed {x : Float} {p : Prop} (hx : Weighed p x.toModel.unpack)
    (h : x.isNaN = false) : 0 < x ↔ ¬ p := by
  have hzero : (0 : Float).toModel.unpack = .zero .positive := rfl
  rw [lt_iff_place_lt rfl h, place, place, hzero]
  rw [isNaN_eq_false_iff] at h
  rcases hx with ⟨hp, s, hs⟩ | ⟨hp, hpos⟩
  · rw [hs]
    exact iff_of_false (lt_irrefl _) (not_not_intro hp)
  · refine iff_of_true ?_ hp
    match x.toModel.unpack, hpos, h with
    | .notANumber, _, h => exact absurd rfl h
    | .infinity .positive, _, _ => simp [unpackedPlace, Prod.Lex.toLex_lt_toLex]
    | .finite .positive m e hm, _, _ => simp [unpackedPlace, Prod.Lex.toLex_lt_toLex]

end SourceAtlas.Number
