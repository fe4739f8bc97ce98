import Mathlib.Data.List.Infix
import SourceAtlas.Proofs.Number.Order
import SourceAtlas.Proofs.Store.Order
import SourceAtlas.Search.Rank

/-!
# The order of results

Ranking puts items in the order of falling scores and leaves those with equal scores as they stood.
All scores that are numbers compare, so that nothing has to be assumed of them.

Results:
* `rank_perm`: ranking keeps all items, whatever their scores.
* `pairwise_rank`: ranking is a stable sort by falling scores.
* `outranks_of_mem_take`: what is among the first outranks all that is not.
-/

namespace SourceAtlas.Rank

open Number

variable {α : Type} {items : List (α × Float)}

/-! ## Nothing gets lost -/

theorem placeOf_le (score : Float) (sorted : Array (α × Float)) {low high : Nat}
    (h : low ≤ high) : placeOf score sorted low high ≤ high := by
  fun_induction placeOf score sorted low high with
  | case1 low high hlt middle _ ih => exact (ih (by omega)).trans (by omega)
  | case2 low high hlt middle _ ih => exact ih (by omega)
  | case3 => exact h

/-- Insertion keeps all items, even where a score is NaN and no order comes of it. -/
theorem insertAll_perm (sorted : Array (α × Float)) (items : List (α × Float)) :
    (insertAll sorted items).toList.Perm (sorted.toList ++ items) := by
  induction items generalizing sorted with
  | nil =>
    rw [List.append_nil]
    exact .refl _
  | cons item items ih =>
    have hplace : placeOf item.2 sorted 0 sorted.size ≤ sorted.size :=
      placeOf_le item.2 sorted (Nat.zero_le _)
    have hinsert : (sorted.insertIdxIfInBounds (placeOf item.2 sorted 0 sorted.size)
        item).toList.Perm (item :: sorted.toList) := by
      rw [Array.insertIdxIfInBounds, dif_pos hplace, Array.toList_insertIdx]
      exact List.perm_insertIdx item _ hplace
    have hrest : (insertAll sorted (item :: items)).toList.Perm
        (item :: sorted.toList ++ items) := (ih _).trans (hinsert.append_right items)
    exact hrest.trans List.perm_middle.symm

theorem insertionSort_perm (items : List (α × Float)) : (insertionSort items).Perm items := by
  match items with
  | [] => exact .refl _
  | [item] => exact .refl _
  | first :: second :: rest =>
    unfold insertionSort
    dsimp only
    generalize first :: second :: rest = items
    generalize 2 + runLength _ second rest = n
    have hrun (b : Bool) : (if b then (items.take n).reverse else items.take n).Perm
        (items.take n) := by
      cases b
      · exact .refl _
      · exact List.reverse_perm _
    refine (insertAll_perm _ _).trans ?_
    rw [List.toList_toArray]
    refine ((hrun _).append_right _).trans ?_
    rw [List.take_append_drop]

/-- Ranking keeps all items. -/
theorem rank_perm (items : List (α × Float)) : (rank items).Perm items := by
  unfold rank byScore
  split
  · exact (List.reverse_perm _).trans ((insertionSort_perm _).trans (List.reverse_perm _))
  · exact List.mergeSort_perm _ _

/-! ## Scores that are numbers -/

/-- No score is NaN. -/
def Numeric (items : List (α × Float)) : Prop := ∀ i ∈ items, i.2.isNaN = false

/-- Items by falling places of their scores. -/
def falls (a b : α × Float) : Bool := decide (place b.2 ≤ place a.2)

theorem falls_trans (a b c : α × Float) (hab : falls a b) (hbc : falls b c) : falls a c := by
  unfold falls at *
  rw [decide_eq_true_eq] at *
  exact le_trans hbc hab

theorem falls_total (a b : α × Float) : falls a b || falls b a := by
  unfold falls
  rw [Bool.or_eq_true, decide_eq_true_eq, decide_eq_true_eq]
  exact le_total _ _

theorem not_lt_iff_falls {a b : α × Float} (ha : a.2.isNaN = false) (hb : b.2.isNaN = false) :
    ¬ a.2 < b.2 ↔ falls a b := by
  unfold falls
  rw [lt_iff_place_lt ha hb, not_lt, decide_eq_true_eq]

/-- Ranking sorts by the places of the scores. -/
theorem rank_eq (h : Numeric items) : rank items = items.mergeSort falls := by
  have hany : (items.any fun i => i.2.isNaN) = false := by
    rw [List.any_eq_false]
    exact fun i hi => by rw [h i hi]; exact Bool.false_ne_true
  have hle : ∀ a ∈ items, ∀ b ∈ items, (!decide (a.2 < b.2)) = falls (id a) (id b) := by
    intro a ha b hb
    rw [Bool.eq_iff_iff, Bool.not_eq_true', decide_eq_false_iff_not]
    exact not_lt_iff_falls (h a ha) (h b hb)
  unfold rank byScore
  rw [if_neg (by rw [hany]; exact Bool.false_ne_true)]
  have hsort := List.map_mergeSort hle
  rwa [List.map_id, List.map_id] at hsort

/-- `a` has a greater score than `b`, or an equal one and stands before it by `R`. -/
def Outranks (R : α → α → Prop) (a b : α × Float) : Prop :=
  ¬ a.2 < b.2 ∧ (¬ b.2 < a.2 → R a.1 b.1)

variable {R : α → α → Prop}

/-- Ranking is a stable sort. -/
theorem pairwise_rank (h : Numeric items) (hR : (items.map Prod.fst).Pairwise R) :
    (rank items).Pairwise (Outranks R) := by
  have hperm := rank_perm items
  rw [rank_eq h] at hperm ⊢
  refine (pairwise_mergeSort_stable falls_trans falls_total (List.pairwise_map.mp hR)).imp_of_mem
    fun {a b} ha hb hab => ?_
  have ha := h a (hperm.mem_iff.mp ha)
  have hb := h b (hperm.mem_iff.mp hb)
  unfold Outranks
  rw [not_lt_iff_falls ha hb, not_lt_iff_falls hb ha]
  exact hab

/-- What is among the first outranks all that is not. -/
theorem outranks_of_mem_take (h : Numeric items) (hR : (items.map Prod.fst).Pairwise R) {n : Nat}
    {a b : α × Float} (ha : a ∈ (rank items).take n) (hb : b ∈ items)
    (hnot : b ∉ (rank items).take n) : Outranks R a b := by
  have hsorted := pairwise_rank h hR
  rw [← List.take_append_drop n (rank items), List.pairwise_append] at hsorted
  have hb := (rank_perm items).mem_iff.mpr hb
  rw [← List.take_append_drop n (rank items), List.mem_append] at hb
  exact hsorted.2.2 a ha b (hb.resolve_left hnot)

end SourceAtlas.Rank
