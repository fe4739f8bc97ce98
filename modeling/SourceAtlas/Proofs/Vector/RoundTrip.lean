import SourceAtlas.Proofs.Search.Cosine
import SourceAtlas.Proofs.Store.Statement
import SourceAtlas.Proofs.Vector.Rounding
import SourceAtlas.Proofs.Vector.Single
import SourceAtlas.Search.Search

/-!
# Vectors that come back as they were stored

A vector is handed in as doubles, kept as the bytes of the nearest singles, and read back as
doubles. A finite single is the nearest one to the double that it widens to, so nothing is lost
where the doubles are singles already: the same bits come back, those of negative zero and of
subnormal singles too. Nor is anything lost the other way round, from bytes to doubles and back.

Results:
* `nearest_toFloat`, `ofFloat_toFloat`: a finite single is widened and rounded to itself.
* `bytesOf_toFloat`, `bytesOf_floatsOf`: what singles are stored as, and what bytes that were read
  are stored as again.
* `vector_roundTrip`: both ways, and what the row of a document holds of its vector.
-/

namespace SourceAtlas

open Number

/-! ## One single -/

namespace Single

/-- A multiple of the scale is shifted without a rest. -/
theorem roundedShift_mul (m k : Nat) : roundedShift (m * 2 ^ k) k = m := by
  have hpos := Nat.two_pow_pos k
  have hscale : Nat.pow 2 k = 2 ^ k := rfl
  unfold roundedShift
  rw [hscale]
  dsimp only
  rw [Nat.mul_mod_left, Nat.mul_div_cancel m hpos]
  simp [hpos.ne]

/-- A magnitude by its exponent and its mantissa. -/
theorem exponent_add_significand (n : Nat) : (max (n / step) 1 - 1) * step + significand n = n := by
  unfold significand step
  split <;> omega

/-- The mantissa of a normal single has its leading bit at the top. -/
theorem log2_significand {n : Nat} (hn : n / step ≠ 0) : (significand n).log2 = 23 := by
  have hpos : n ≠ 0 := by
    rintro rfl
    exact hn (Nat.zero_div step)
  refine Nat.le_antisymm (log2_significand_le hpos) ((Nat.le_log2 ?_).mpr ?_)
  · exact mt (significand_eq_zero_iff n).mp hpos
  · unfold significand
    rw [if_neg hn]
    exact Nat.le_add_left step _

section Finite

variable {s : Single} (h : s.isFinite = true)

include h

/-- The fraction and the exponent of a widened single do not depend on its sign. -/
theorem fields_toFloat :
    s.toFloat.toBits.toNat % Number.hidden = widened s.magnitude % Number.hidden ∧
      s.toFloat.toBits.toNat / Number.hidden % 0x800 = widened s.magnitude / Number.hidden := by
  have hlt := widened_lt ((isFinite_iff s).mp h)
  rw [toNat_toBits_toFloat h]
  unfold Number.hidden at *
  split <;> omega

theorem ofFloat_toFloat_zero (hn : s.magnitude = 0) :
    Binary.ofFloat s.toFloat = ⟨0, -1074, false⟩ := by
  obtain ⟨hfraction, hexponent⟩ := fields_toFloat h
  unfold Binary.ofFloat
  dsimp only
  rw [hfraction, hexponent, hn]
  rfl

/-- The mantissa and the power of the double that a single widens to. -/
theorem binary_toFloat (hn : s.magnitude ≠ 0) :
    (Binary.ofFloat s.toFloat).mantissa =
        significand s.magnitude * 2 ^ (52 - (significand s.magnitude).log2) ∧
      (Binary.ofFloat s.toFloat).power =
        (max (s.magnitude / step) 1 : Nat) + ((significand s.magnitude).log2 : Int) - 202 := by
  obtain ⟨hfraction, hexponent⟩ := fields_toFloat h
  obtain ⟨htop, hlow⟩ := widened_fields ((isFinite_iff s).mp h) hn
  rw [htop] at hexponent
  unfold Binary.ofFloat
  dsimp only
  rw [hfraction, hexponent, if_neg (by simp)]
  refine ⟨hlow, ?_⟩
  dsimp only
  omega

/-- A magnitude is nearest to that of the double it widens to. -/
theorem nearest_toFloat : nearest (.ofFloat s.toFloat) = s.magnitude := by
  have hfinite := (isFinite_iff s).mp h
  by_cases hn : s.magnitude = 0
  · rw [ofFloat_toFloat_zero h hn, hn]
    decide +kernel
  · obtain ⟨hmantissa, hpower⟩ := binary_toFloat h hn
    have hlog := log2_significand_le hn
    have hnormal := log2_significand (n := s.magnitude)
    have hle : s.magnitude ≤ infinite := by
      unfold step at hfinite
      unfold infinite
      omega
    -- The last bit of a normal single counts what its exponent says, of another the least there is.
    have hunit : max ((Binary.ofFloat s.toFloat).power + 29) (-149) =
        (max (s.magnitude / step) 1 : Nat) - 150 := by
      omega
    have hplace : (((max (s.magnitude / step) 1 : Nat) : Int) - 150 + 149).toNat =
        max (s.magnitude / step) 1 - 1 := by
      omega
    have hshift : (((max (s.magnitude / step) 1 : Nat) : Int) - 150 -
        (Binary.ofFloat s.toFloat).power).toNat = 52 - (significand s.magnitude).log2 := by
      omega
    unfold nearest
    dsimp only
    rw [hunit, hplace, hshift, hmantissa, roundedShift_mul, exponent_add_significand]
    exact Nat.min_eq_left hle

/-- A finite single is the nearest one to the double that it widens to. -/
theorem ofFloat_toFloat : ofFloat s.toFloat = s := by
  have hnegative : isNegative s.toFloat = true ↔ 0x80000000 ≤ s.toNat := by
    have hlt := widened_lt ((isFinite_iff s).mp h)
    unfold isNegative
    rw [beq_iff_eq, toNat_toBits_toFloat h]
    unfold Number.hidden at hlt
    split <;> omega
  have hbound := s.toNat_lt
  apply UInt32.toNat_inj.mp
  unfold ofFloat
  rw [isNaN_toFloat h, isInf_toFloat h, nearest_toFloat h]
  simp only [Bool.false_eq_true, if_false, hnegative]
  unfold magnitude
  rw [UInt32.toNat_ofNat']
  split <;> omega

end Finite

end Single

/-! ## Vectors -/

/-- The bytes that doubles are stored as, with the number of elements that is noted beside them. -/
def bytesOf (xs : List Float) : Except VectorFault (List UInt8 × Nat) :=
  (storedVector (some (.ofFloats xs))).map fun v => (encodeVector v, v.length)

/-- The doubles that stored bytes are read as. -/
def floatsOf (bytes : List UInt8) : List Float := (decodeVector bytes).map Single.toFloat

/-- Doubles are stored as the nearest singles, if there are any and all of these are finite. -/
theorem bytesOf_of_finite {xs : List Float} {v : List Single} (hv : xs.map Single.ofFloat = v)
    (hne : v ≠ []) (hfinite : ∀ s ∈ v, s.isFinite) :
    bytesOf xs = .ok (encodeVector v, v.length) := by
  have hempty : v.isEmpty = false := by simpa using hne
  have hall : v.all Single.isFinite = true := List.all_eq_true.mpr hfinite
  have hstored : storedVector (some (.ofFloats xs)) = .ok v := by
    unfold storedVector Nested.ofFloats
    dsimp only
    rw [← Nested.ofFloats, Nested.toDoubles_ofFloats]
    dsimp only
    rw [hv, hempty, hall]
    rfl
  unfold bytesOf
  rw [hstored]
  rfl

theorem map_ofFloat_toFloat {v : List Single} (hfinite : ∀ s ∈ v, s.isFinite) :
    (v.map Single.toFloat).map Single.ofFloat = v := by
  have hself : ∀ s ∈ v, (Single.ofFloat ∘ Single.toFloat) s = id s := by
    intro s hs
    exact Single.ofFloat_toFloat (hfinite s hs)
  rw [List.map_map, List.map_congr_left hself, List.map_id]

/-- Singles are stored as their bytes. -/
theorem bytesOf_toFloat {v : List Single} (hne : v ≠ []) (hfinite : ∀ s ∈ v, s.isFinite) :
    bytesOf (v.map Single.toFloat) = .ok (encodeVector v, v.length) :=
  bytesOf_of_finite (map_ofFloat_toFloat hfinite) hne hfinite

theorem length_decodeVector {bytes : List UInt8} (h : 4 ∣ bytes.length) :
    4 * (decodeVector bytes).length = bytes.length := by
  obtain ⟨n, hn⟩ := h
  rw [← length_encodeVector, encodeVector_decodeVector hn]

/-- What was read from bytes is stored as these bytes. -/
theorem bytesOf_floatsOf {bytes : List UInt8} (hpos : 0 < bytes.length) (h : 4 ∣ bytes.length)
    (hfinite : ∀ s ∈ decodeVector bytes, s.isFinite) :
    bytesOf (floatsOf bytes) = .ok (bytes, bytes.length / 4) := by
  have hlength := length_decodeVector h
  have hne : decodeVector bytes ≠ [] := by
    apply List.ne_nil_of_length_pos
    omega
  obtain ⟨n, hn⟩ := h
  unfold floatsOf
  rw [bytesOf_toFloat hne hfinite, encodeVector_decodeVector hn]
  congr 2
  omega

/-! ## Rows -/

/-- The row of a document holds the bytes of its doubles and the number noted beside them, and what
    is read from the row are the doubles of these bytes. -/
theorem bytesOf_toRow {d : Draft} {doc : StoredDocument} {xs : List Float}
    (hvector : d.vector = some (.ofFloats xs)) (hdoc : d.document? = some doc) :
    bytesOf xs = .ok (doc.toRow.vector, doc.toRow.dimensions) ∧
      ∀ rows, (Tables.document rows doc.toRow).floats = floatsOf doc.toRow.vector := by
  have hstored := (Draft.document?_eq_some_iff.mp hdoc).2.2.1
  rw [hvector] at hstored
  unfold bytesOf
  rw [hstored]
  exact ⟨rfl, fun rows => rfl⟩

/-- **Stored vectors come back bit for bit.** Finite singles, one or more, are stored as doubles in
    four bytes each, their number is noted, and the same bits are read from the bytes in the same
    order. Bytes of whole finite singles, one or more, are stored again as they are when the doubles
    read from them are stored. The row of a document holds the bytes and the number for the doubles
    that were handed in, and the document is read with the doubles of the bytes. -/
theorem vector_roundTrip :
    (∀ v : List Single, v ≠ [] → (∀ s ∈ v, s.isFinite) → ∃ bytes,
      bytesOf (v.map Single.toFloat) = .ok (bytes, v.length) ∧ bytes.length = 4 * v.length ∧
        decodeVector bytes = v ∧ (floatsOf bytes).map Single.ofFloat = v) ∧
    (∀ bytes : List UInt8, 0 < bytes.length → 4 ∣ bytes.length →
      (∀ s ∈ decodeVector bytes, s.isFinite) →
        bytesOf (floatsOf bytes) = .ok (bytes, bytes.length / 4)) ∧
    ∀ (d : Draft) (doc : StoredDocument) (xs : List Float), d.vector = some (.ofFloats xs) →
      d.document? = some doc → bytesOf xs = .ok (doc.toRow.vector, doc.toRow.dimensions) ∧
        ∀ rows, (Tables.document rows doc.toRow).floats = floatsOf doc.toRow.vector := by
  refine ⟨fun v hne hfinite => ?_, fun bytes => bytesOf_floatsOf, fun d doc xs => bytesOf_toRow⟩
  refine ⟨encodeVector v, bytesOf_toFloat hne hfinite, length_encodeVector v,
    decodeVector_encodeVector v, ?_⟩
  unfold floatsOf
  rw [decodeVector_encodeVector, map_ofFloat_toFloat hfinite]

/-- Negative zero and the least single. -/
def faint : List Single := [0x80000000, 1]

/-- Their bytes. -/
def faintBytes : List UInt8 := [0, 0, 0, 0x80, 1, 0, 0, 0]

/-- A document with a vector of one element. -/
def unitDraft : Draft := ⟨some "a", some "", some (.ofFloats [1]), [], some "", some ""⟩

theorem vector_roundTrip_faint :
    (faint ≠ [] ∧ ∀ s ∈ faint, s.isFinite) ∧
    (∃ bytes, bytesOf (faint.map Single.toFloat) = .ok (bytes, 2) ∧ bytes.length = 8 ∧
      decodeVector bytes = faint) ∧
    (0 < faintBytes.length ∧ 4 ∣ faintBytes.length ∧ ∀ s ∈ decodeVector faintBytes, s.isFinite) ∧
    bytesOf (floatsOf faintBytes) = .ok (faintBytes, 2) ∧
    ∃ doc, unitDraft.document? = some doc ∧
      bytesOf [1] = .ok (doc.toRow.vector, doc.toRow.dimensions) := by
  obtain ⟨hsingles, hbytes, hrow⟩ := vector_roundTrip
  have hfinite : ∀ s ∈ faint, s.isFinite := by
    unfold faint
    rw [List.forall_mem_cons, List.forall_mem_singleton]
    exact ⟨by cbv, by cbv⟩
  have hdecoded : decodeVector faintBytes = faint := by decide +kernel
  have hread : ∀ s ∈ decodeVector faintBytes, s.isFinite := hdecoded ▸ hfinite
  have hdoc : unitDraft.document? = some ⟨"a", "", [0x3F800000], "", "", []⟩ := by rfl
  obtain ⟨bytes, hstored, hlength, hsame, -⟩ := hsingles faint (List.cons_ne_nil _ _) hfinite
  exact ⟨⟨List.cons_ne_nil _ _, hfinite⟩, ⟨bytes, hstored, hlength, hsame⟩,
    ⟨by decide, by decide, hread⟩, hbytes faintBytes (by decide) (by decide) hread, _, hdoc,
    (hrow _ _ _ rfl hdoc).1⟩

end SourceAtlas
