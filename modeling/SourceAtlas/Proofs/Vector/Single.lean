import Mathlib.Data.List.Basic
import SourceAtlas.Vector.Single

/-!
# Vectors as bytes

Results:
* `decodeVector_encodeVector`: a vector is read back from its bytes as it was.
* `encodeVector_decodeVector`: bytes of whole singles are those of the vector read from them.
* `length_encodeVector`: a vector takes four bytes for each element.
-/

namespace SourceAtlas

namespace Single

/-- Thirty-two bits are put together from their four bytes. -/
theorem setWidth_bytes (b : BitVec 32) :
    (b.setWidth 8).setWidth 32 ||| ((b >>> 8).setWidth 8).setWidth 32 <<< 8 |||
      ((b >>> 16).setWidth 8).setWidth 32 <<< 16 ||| ((b >>> 24).setWidth 8).setWidth 32 <<< 24 =
        b := by
  apply BitVec.eq_of_getLsbD_eq
  intro i hi
  have h₁ : 8 ≤ i → 8 + (i - 8) = i := by omega
  have h₂ : 16 ≤ i → 16 + (i - 16) = i := by omega
  have h₃ : 24 ≤ i → 24 + (i - 24) = i := by omega
  simp only [BitVec.getLsbD_or, BitVec.getLsbD_shiftLeft, BitVec.getLsbD_setWidth,
    BitVec.getLsbD_ushiftRight]
  grind

/-- A single is made of its four bytes. -/
theorem decode_encode (s : Single) :
    decode s.toUInt8 (s >>> 8).toUInt8 (s >>> 16).toUInt8 (s >>> 24).toUInt8 = s := by
  unfold decode
  apply UInt32.toBitVec_inj.mp
  simp only [UInt32.toBitVec_or, UInt32.toBitVec_shiftLeft, UInt8.toBitVec_toUInt32,
    UInt32.toBitVec_toUInt8, UInt32.toBitVec_shiftRight]
  exact setWidth_bytes s.toBitVec

/-- The four bytes of a single that was put together from bytes are these. -/
theorem setWidth_append (a b c d : BitVec 8) :
    let s := a.setWidth 32 ||| b.setWidth 32 <<< 8 ||| c.setWidth 32 <<< 16 ||| d.setWidth 32 <<< 24
    s.setWidth 8 = a ∧ (s >>> 8).setWidth 8 = b ∧ (s >>> 16).setWidth 8 = c ∧
      (s >>> 24).setWidth 8 = d := by
  refine ⟨?_, ?_, ?_, ?_⟩ <;>
  · apply BitVec.eq_of_getLsbD_eq
    intro i hi
    simp only [BitVec.getLsbD_or, BitVec.getLsbD_shiftLeft, BitVec.getLsbD_setWidth,
      BitVec.getLsbD_ushiftRight]
    grind

theorem encode_decode (a b c d : UInt8) : (decode a b c d).encode = [a, b, c, d] := by
  obtain ⟨ha, hb, hc, hd⟩ := setWidth_append a.toBitVec b.toBitVec c.toBitVec d.toBitVec
  unfold decode encode
  simp only [List.cons.injEq, and_true, ← UInt8.toBitVec_inj, UInt32.toBitVec_toUInt8,
    UInt32.toBitVec_shiftRight, UInt32.toBitVec_or, UInt32.toBitVec_shiftLeft,
    UInt8.toBitVec_toUInt32]
  exact ⟨ha, hb, hc, hd⟩

end Single

@[simp] theorem decodeVector_encodeVector (v : List Single) :
    decodeVector (encodeVector v) = v := by
  induction v with
  | nil => rfl
  | cons s v ih =>
    have h : encodeVector (s :: v) = s.encode ++ encodeVector v := List.flatMap_cons
    rw [h]
    unfold Single.encode
    simp only [List.cons_append, List.nil_append, decodeVector, ih, Single.decode_encode]

/-- Bytes of whole singles are those of the vector that is read from them. -/
theorem encodeVector_decodeVector {bytes : List UInt8} {n : Nat} (h : bytes.length = 4 * n) :
    encodeVector (decodeVector bytes) = bytes := by
  induction n generalizing bytes with
  | zero =>
    rw [List.length_eq_zero_iff.mp h]
    rfl
  | succ n ih =>
    match bytes with
    | a :: b :: c :: d :: rest =>
      have hrest : rest.length = 4 * n := by
        simp only [List.length_cons] at h
        omega
      have hcons : encodeVector (decodeVector (a :: b :: c :: d :: rest)) =
          (Single.decode a b c d).encode ++ encodeVector (decodeVector rest) := List.flatMap_cons
      rw [hcons, ih hrest, Single.encode_decode]
      rfl
    | [] | [_] | [_, _] | [_, _, _] =>
      simp only [List.length_cons, List.length_nil] at h
      omega

theorem length_encodeVector (v : List Single) : (encodeVector v).length = 4 * v.length := by
  induction v with
  | nil => rfl
  | cons s v ih =>
    have h : encodeVector (s :: v) = s.encode ++ encodeVector v := List.flatMap_cons
    rw [h, List.length_append, ih, List.length_cons]
    simp only [Single.encode, List.length_cons, List.length_nil]
    omega

end SourceAtlas
