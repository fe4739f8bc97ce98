import Mathlib

/-!
# The order of doubles

All doubles but NaN stand in one line, from minus infinity over the negative numbers, zero and the
positive numbers to infinity. Both zeros stand at one place.

Results:
* `lt_iff_place_lt`: of two numbers the one that stands first is the smaller.
-/

namespace SourceAtlas.Number

open Float.Model

/-- Where an unpacked double stands: its part of the line, and there its exponent and mantissa. -/
def unpackedPlace : UnpackedFloat → ℤ ×ₗ ℤ ×ₗ ℤ
  | .infinity .negative => toLex (-2, toLex (0, 0))
  | .finite .negative mantissa exponent _ => toLex (-1, toLex (-exponent, -mantissa))
  | .zero _ => toLex (0, toLex (0, 0))
  | .finite .positive mantissa exponent _ => toLex (1, toLex (exponent, mantissa))
  | .infinity .positive => toLex (2, toLex (0, 0))
  | .notANumber => toLex (0, toLex (0, 0))

/-- Where a double stands. -/
def place (x : Float) : ℤ ×ₗ ℤ ×ₗ ℤ := unpackedPlace x.toModel.unpack

theorem compare_eq_lt_iff {a b : UnpackedFloat} (ha : a ≠ .notANumber) (hb : b ≠ .notANumber) :
    a.compare b = some .lt ↔ unpackedPlace a < unpackedPlace b := by
  cases a with
  | notANumber => exact absurd rfl ha
  | infinity s =>
    cases b with
    | notANumber => exact absurd rfl hb
    | infinity t => cases s <;> cases t <;> decide
    | zero t => cases s <;> simp [UnpackedFloat.compare, unpackedPlace, Prod.Lex.toLex_lt_toLex]
    | finite t m e h =>
      cases s <;> cases t <;> simp [UnpackedFloat.compare, unpackedPlace, Prod.Lex.toLex_lt_toLex]
  | zero s =>
    cases b with
    | notANumber => exact absurd rfl hb
    | infinity t => cases t <;> simp [UnpackedFloat.compare, unpackedPlace, Prod.Lex.toLex_lt_toLex]
    | zero t => simp [UnpackedFloat.compare, unpackedPlace]
    | finite t m e h =>
      cases t <;> simp [UnpackedFloat.compare, unpackedPlace, Prod.Lex.toLex_lt_toLex]
  | finite s m e h =>
    cases b with
    | notANumber => exact absurd rfl hb
    | infinity t =>
      cases s <;> cases t <;> simp [UnpackedFloat.compare, unpackedPlace, Prod.Lex.toLex_lt_toLex]
    | zero t => cases s <;> simp [UnpackedFloat.compare, unpackedPlace, Prod.Lex.toLex_lt_toLex]
    | finite t m' e' h' =>
      cases s <;> cases t <;>
        simp [UnpackedFloat.compare, unpackedPlace, Prod.Lex.toLex_lt_toLex, Ordering.swap_eq_lt,
          Ordering.then_eq_lt, Ordering.then_eq_gt, compare_lt_iff_lt, compare_gt_iff_gt]

theorem unpack_ne_of_isNaN {x : Float} (h : x.isNaN = false) :
    x.toModel.unpack ≠ .notANumber := by
  intro hx
  have : x.isNaN = x.toModel.unpack.isNaN := rfl
  rw [hx] at this
  rw [h] at this
  cases this

/-- Of two numbers the one that stands first is the smaller. -/
theorem lt_iff_place_lt {x y : Float} (hx : x.isNaN = false) (hy : y.isNaN = false) :
    x < y ↔ place x < place y := by
  unfold place
  rw [← compare_eq_lt_iff (unpack_ne_of_isNaN hx) (unpack_ne_of_isNaN hy)]
  have hlt : x < y ↔ x.toModel.lt y.toModel = true := decide_eq_true_iff
  rw [hlt, Float.Model.lt, UnpackedFloat.lt, beq_iff_eq]

end SourceAtlas.Number
