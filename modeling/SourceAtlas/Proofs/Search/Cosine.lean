import SourceAtlas.Proofs.Fault.Result
import SourceAtlas.Proofs.Search.Score
import SourceAtlas.Proofs.Vector.Shape

/-!
# Scores and cosines

A search scores all stored vectors at once, by the rows of a matrix; the cosine is defined for two
vectors by themselves. Both agree on every vector, also on those that have no cosine.

Results:
* `cosine_ofFloats`: the cosine of two lists of doubles, and why there may be none.
* `scoresByPlace_eq_cosine`: the vectors that have a score are those that have a cosine with the
  query, and the score is the cosine.
-/

namespace SourceAtlas

/-! ## Lists of doubles -/

theorem Nested.ofFloats_eq (xs : List Float) : ofFloats xs = ofScalars (xs.map .float) := by
  rw [ofFloats, ofScalars, List.map_map]
  rfl

theorem mapM_toFloat?_floats (xs : List Float) :
    (xs.map Scalar.float).mapM Scalar.toFloat? = some xs := by
  induction xs with
  | nil => rfl
  | cons x xs ih =>
    rw [List.map_cons, List.mapM_cons, ih]
    rfl

theorem Nested.toDoubles_ofFloats (xs : List Float) :
    (ofFloats xs).toDoubles = .ok ⟨[xs.length], xs⟩ := by
  rw [ofFloats_eq, toDoubles_ofScalars, mapM_toFloat?_floats, List.length_map]

/-- The cosine of two lists of doubles: they must be of one length, and none of them may be zero. -/
theorem cosine_ofFloats (v w : List Float) : cosine (.ofFloats v) (.ofFloats w) =
    if v.length ≠ w.length then .error (.shapes [v.length] [w.length])
    else if norm v == 0 || norm w == 0 then .error .zero
    else .ok (similarity v w) := by
  unfold cosine
  rw [Nested.toDoubles_ofFloats, Nested.toDoubles_ofFloats]
  simp only [Except.mapError, ok_bind, throw_bind, bne_iff_ne, ne_eq, List.cons.injEq, and_true]
  rfl

/-! ## All at once -/

section Scores

variable {query v : List Float} {vectors : List (List Float)}
  (hquery : (norm query == 0) = false)

include hquery

/-- A vector has a cosine with a query that has a direction iff it is as long and has one, too. -/
theorem toOption_cosine (hv : 0 < norm v ↔ (norm v == 0) = false) :
    (cosine (.ofFloats v) (.ofFloats query)).toOption =
      if v.length = query.length ∧ 0 < norm v then some (similarity v query) else none := by
  rw [cosine_ofFloats, hquery, Bool.or_false]
  by_cases hl : v.length = query.length <;> cases hn : norm v == 0 <;>
    simp [hl, hn, hv, Except.toOption]

/-- **All at once is one by one.** Let the query have a direction, and let every vector whose norm
    is not zero have a positive norm. Then the scores of vectors of any lengths are their cosines
    with the query, each with the place of its vector and in the order of the vectors; and the
    vectors left out are those for which the cosine is refused, as they are of another length or
    zero. -/
theorem scoresByPlace_eq_cosine (hnorms : ∀ v ∈ vectors, 0 < norm v ↔ (norm v == 0) = false) :
    scoresByPlace query vectors = vectors.zipIdx.filterMap (fun v =>
      (cosine (.ofFloats v.1) (.ofFloats query)).toOption.map fun x => (v.2, x)) ∧
    ∀ i v, vectors[i]? = some v →
      (∀ x, (i, x) ∈ scoresByPlace query vectors ↔
        cosine (.ofFloats v) (.ofFloats query) = .ok x) ∧
      ((∀ x, (i, x) ∉ scoresByPlace query vectors) ↔
        cosine (.ofFloats v) (.ofFloats query) = .error (.shapes [v.length] [query.length]) ∨
          cosine (.ofFloats v) (.ofFloats query) = .error .zero) := by
  constructor
  · rw [scoresByPlace_eq]
    refine List.filterMap_congr fun u hu => ?_
    have hu : u.1 ∈ vectors := List.mem_of_getElem? (List.mem_zipIdx_iff_getElem?.mp hu)
    rw [toOption_cosine hquery (hnorms u.1 hu)]
    split <;> rfl
  · intro i v hi
    have hv := hnorms v (List.mem_of_getElem? hi)
    have hmem (x : Float) : (i, x) ∈ scoresByPlace query vectors ↔
        (v.length = query.length ∧ 0 < norm v) ∧ x = similarity v query := by
      rw [mem_scoresByPlace, hi]
      simp
    simp only [hmem, cosine_ofFloats, hquery, Bool.or_false, hv]
    by_cases hl : v.length = query.length <;> cases hn : norm v == 0 <;>
      simp [hl, @eq_comm _ (similarity v query)]

end Scores

/-- Vectors of which some are too short, too long or zero, in a mixed order. -/
def mixedVectors : List (List Float) := [[0, 0], [3], [4, 3], [], [0, 2], [1, 1, 1]]

theorem scoresByPlace_eq_cosine_mixedVectors :
    (norm [1, 0] == 0) = false ∧
      (∀ v ∈ mixedVectors, 0 < norm v ↔ (norm v == 0) = false) ∧
      scoresByPlace [1, 0] mixedVectors =
        [(2, similarity [4, 3] [1, 0]), (4, similarity [0, 2] [1, 0])] := by
  have hquery : (norm [1, 0] == 0) = false := by decide +kernel
  have hnorms : ∀ v ∈ mixedVectors, 0 < norm v ↔ (norm v == 0) = false := by
    unfold mixedVectors
    decide +kernel
  have hzero : (norm [0, 0] == 0) = true := by decide +kernel
  have hthird : (norm [4, 3] == 0) = false := by decide +kernel
  have hfifth : (norm [0, 2] == 0) = false := by decide +kernel
  refine ⟨hquery, hnorms, ?_⟩
  rw [(scoresByPlace_eq_cosine hquery hnorms).1]
  simp [mixedVectors, cosine_ofFloats, hquery, hzero, hthird, hfifth, Except.toOption]

end SourceAtlas
