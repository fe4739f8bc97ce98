import Mathlib.Data.List.Basic
import SourceAtlas.Search.Search

/-!
# Scores one by one

The scores of many vectors are computed from lists that are cut down by a mask and put together
again. What is cut down by one mask stays aligned, so that each vector has the score that it has by
itself: its cosine with the query, or none where that is not defined.

Results:
* `masked_map`: what a mask keeps of lists that go with one another goes with one another.
* `scoresByPlace_eq`, `scored_eq`: the scores as a computation on each vector by itself.
* `mem_scoresByPlace`: which vectors have a score, and what it is.
-/

namespace SourceAtlas

variable {query : List Float} {vectors : List (List Float)}

/-! ## Masks -/

/-- A mask that is computed from the elements of a list keeps of what is computed from them what
    belongs to the elements that it keeps. -/
theorem masked_map {α β : Type} (xs : List α) (p : α → Bool) (f : α → β) :
    masked (xs.map p) (xs.map f) = (xs.filter p).map f := by
  unfold masked
  induction xs with
  | nil => rfl
  | cons x xs ih => by_cases hx : p x <;> simp [hx, ih]

/-- Behind all masks stand the vectors of the query's length that have a direction, in their
    order. -/
theorem scoresByPlace_eq_map (query : List Float) (vectors : List (List Float)) :
    scoresByPlace query vectors =
      ((stacked query vectors).filter fun u => decide (0 < norm u.2)).map fun u =>
        (u.1, similarity u.2 query) := by
  unfold scoresByPlace
  dsimp only
  split
  · rename_i hempty
    rw [List.isEmpty_iff.mp hempty]
    rfl
  · simp only [List.map_map, masked_map, List.zipWith_map, List.zipWith_self, List.zip_map']
    rfl

/-- The scores of vectors are those of each vector by itself. -/
theorem scoresByPlace_eq (query : List Float) (vectors : List (List Float)) :
    scoresByPlace query vectors = vectors.zipIdx.filterMap fun v =>
      if v.1.length = query.length ∧ 0 < norm v.1 then some (v.2, similarity v.1 query)
      else none := by
  rw [scoresByPlace_eq_map, stacked, List.filter_map, List.map_map, List.filter_filter,
    ← List.filterMap_eq_map, List.filterMap_filter]
  refine List.filterMap_congr fun v _ => ?_
  by_cases hl : v.1.length = query.length <;> by_cases hn : 0 < norm v.1 <;> simp [hl, hn]

theorem mem_scoresByPlace {i : Nat} {x : Float} : (i, x) ∈ scoresByPlace query vectors ↔
    ∃ v, vectors[i]? = some v ∧ (v.length = query.length ∧ 0 < norm v) ∧
      x = similarity v query := by
  rw [scoresByPlace_eq, List.mem_filterMap]
  constructor
  · rintro ⟨⟨v, j⟩, hv, h⟩
    obtain ⟨hok, h⟩ := Option.ite_none_right_eq_some.mp h
    cases h
    exact ⟨v, List.mem_zipIdx_iff_getElem?.mp hv, hok, rfl⟩
  · rintro ⟨v, hv, hok, rfl⟩
    exact ⟨(v, i), List.mem_zipIdx_iff_getElem?.mpr hv, if_pos hok⟩

/-! ## Documents -/

theorem toOption_scoreOf (query : List Float) (d : StoredDocument) :
    (scoreOf query d).toOption =
      if d.floats.length = query.length ∧ 0 < norm d.floats then
        some (similarity d.floats query)
      else none := by
  unfold scoreOf
  by_cases hl : d.floats.length = query.length <;> by_cases hn : 0 < norm d.floats <;>
    simp [hl, hn, Except.toOption]

/-- The documents that have a score are found one by one. -/
theorem scored_eq (query : List Float) (ds : List StoredDocument) :
    scored query ds = ds.filterMap fun d => (scoreOf query d).toOption.map fun x => (d, x) := by
  have hplaces : ds.filterMap (fun d => (scoreOf query d).toOption.map fun x => (d, x)) =
      ds.zipIdx.filterMap fun u => (scoreOf query u.1).toOption.map fun x => (u.1, x) := by
    conv_lhs => rw [← List.zipIdx_map_fst 0 ds, List.filterMap_map]
    rfl
  unfold scored
  rw [hplaces, scoresByPlace_eq, List.zipIdx_map, List.filterMap_map, List.filterMap_filterMap]
  refine List.filterMap_congr fun u hu => ?_
  have hd : ds[u.2]? = some u.1 := List.mem_zipIdx_iff_getElem?.mp hu
  rw [toOption_scoreOf]
  dsimp only [Function.comp, Prod.map]
  split <;> simp [hd]

end SourceAtlas
