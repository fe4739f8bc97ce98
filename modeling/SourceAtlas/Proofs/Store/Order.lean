import Mathlib.Data.List.Nodup
import SourceAtlas.Store.Read

/-!
# The order of references

References are read in the order of their paths and lines, and of those with one line the one that
was written first comes first. Numbers are given in the order of writing, so that it is the numbers
which tell two references of one line apart.

Results:
* `pairwise_mergeSort_text`: what is sorted by texts stands in their order.
* `pairwise_mergeSort_stable`: sorting keeps the order of what compares as equal.
* `filter_sortedReferences`: sorting all references and picking some is picking and then sorting.
* `map_view_sortedReferences`: the references of one path are read in the order of their lines,
  those of one line as they were written.
* `flatMap_filter_eq`: what is sorted by a key is put together from its parts with one key each.
-/

namespace SourceAtlas

/-! ## Sorting and picking -/

section Sorting

variable {α : Type} {le : α → α → Bool}

/-- Where an order tells all elements apart, it does not matter whether some are picked before or
    after sorting. -/
theorem filter_mergeSort {l : List α} (htrans : ∀ a b c, le a b → le b c → le a c)
    (htotal : ∀ a b, le a b || le b a)
    (hanti : ∀ a ∈ l, ∀ b ∈ l, le a b → le b a → a = b) (p : α → Bool) :
    (l.mergeSort le).filter p = (l.filter p).mergeSort le := by
  have hperm := List.mergeSort_perm l le
  have hpicked := (List.pairwise_mergeSort htrans htotal l).sublist (List.filter_sublist (p := p))
  have hsorted := List.pairwise_mergeSort htrans htotal (l.filter p)
  refine List.Perm.eq_of_pairwise ?_ hpicked hsorted
    ((hperm.filter p).trans (List.mergeSort_perm _ _).symm)
  intro a b ha hb
  have ha : a ∈ l := hperm.mem_iff.mp (List.mem_of_mem_filter ha)
  have hb : b ∈ l := List.mem_of_mem_filter (List.mem_mergeSort.mp hb)
  exact hanti a ha b hb

/-- What is sorted by texts stands in their order. -/
theorem pairwise_mergeSort_text (text : α → String) (l : List α) :
    (l.mergeSort fun a b => decide (text a ≤ text b)).Pairwise fun a b => text a ≤ text b := by
  refine (List.pairwise_mergeSort ?_ ?_ l).imp fun hab => of_decide_eq_true hab
  · intro a b c hab hbc
    exact decide_eq_true (String.le_trans (of_decide_eq_true hab) (of_decide_eq_true hbc))
  · intro a b
    simpa using String.le_total (text a) (text b)

/-- Sorting is stable: of elements that an order does not tell apart, the one that stood first
    stands first. -/
theorem pairwise_mergeSort_stable {R : α → α → Prop} {l : List α}
    (htrans : ∀ a b c, le a b → le b c → le a c) (htotal : ∀ a b, le a b || le b a)
    (hl : l.Pairwise R) : (l.mergeSort le).Pairwise fun a b => le a b ∧ (le b a → R a b) := by
  induction l with
  | nil => simp
  | cons r l ih =>
    rw [List.pairwise_cons] at hl
    obtain ⟨before, after, hr, hrest, hlt⟩ := List.mergeSort_cons htrans htotal r l
    have hmem : ∀ a ∈ after, a ∈ l := by
      intro a ha
      rw [← (List.mergeSort_perm l le).mem_iff, hrest]
      exact List.mem_append_right _ ha
    have hsorted := List.pairwise_mergeSort htrans htotal (r :: l)
    have ih := ih hl.2
    rw [hrest, List.pairwise_append] at ih
    rw [hr, List.pairwise_append, List.pairwise_cons] at hsorted
    rw [hr, List.pairwise_append, List.pairwise_cons]
    refine ⟨ih.1, ⟨fun a ha => ⟨hsorted.2.1.1 a ha, fun _ => hl.1 a (hmem a ha)⟩, ih.2.1⟩,
      fun b hb a ha => ?_⟩
    rcases List.mem_cons.mp ha with rfl | ha
    · have hnot := hlt b hb
      rw [Bool.not_eq_true', ← Bool.not_eq_true] at hnot
      exact ⟨hsorted.2.2 b hb a List.mem_cons_self, fun hle => absurd hle hnot⟩
    · exact ih.2.2 b hb a ha

/-- A list in the order of its keys is put together from its parts with one key each. -/
theorem flatMap_filter_eq {κ : Type} [DecidableEq κ] {lt : κ → κ → Prop} {key : α → κ}
    (hirrefl : ∀ a, ¬ lt a a) {l : List α} {ks : List κ} (hks : ks.Pairwise lt)
    (hl : l.Pairwise fun a b => ¬ lt (key b) (key a)) (hmem : ∀ a ∈ l, key a ∈ ks) :
    (ks.flatMap fun k => l.filter fun a => key a == k) = l := by
  induction ks generalizing l with
  | nil =>
    cases l with
    | nil => rfl
    | cons a l => cases hmem a List.mem_cons_self
  | cons k ks ih =>
    rw [List.pairwise_cons] at hks
    -- The elements with the first key stand before all others.
    have hsplit : (l.filter fun a => key a == k) ++ (l.filter fun a => key a != k) = l := by
      clear ih
      induction l with
      | nil => rfl
      | cons a l ihl =>
        rw [List.pairwise_cons] at hl
        rw [List.forall_mem_cons] at hmem
        by_cases ha : key a = k
        · simpa [ha] using ihl hl.2 hmem.2
        · have hlt : lt k (key a) := hks.1 _ ((List.mem_cons.mp hmem.1).resolve_left ha)
          have hne : ∀ b ∈ l, ¬ key b = k := fun b hb hk => hl.1 b hb (hk ▸ hlt)
          have hnone : (l.filter fun b => key b == k) = [] := by simpa using hne
          have hall : (l.filter fun b => key b != k) = l := by simpa using hne
          simp [ha, hnone, hall]
    have hrest : (ks.flatMap fun k' => l.filter fun a => key a == k') =
        l.filter fun a => key a != k := by
      rw [← ih hks.2 (hl.sublist List.filter_sublist) fun a ha => ?_]
      · simp only [List.filter_filter]
        refine List.flatMap_congr fun k' hk' => List.filter_congr fun a _ => ?_
        have hne : k' ≠ k := fun h => hirrefl k (h ▸ hks.1 k' hk')
        by_cases ha : key a = k' <;> simp [ha, hne]
      · obtain ⟨ha, hk⟩ := List.mem_filter.mp ha
        exact (List.mem_cons.mp (hmem a ha)).resolve_left (by simpa using hk)
    rw [List.flatMap_cons, hrest, hsplit]

end Sorting

/-! ## References in order -/

namespace ReferenceRow

variable {a b c : ReferenceRow}

theorem le_iff : a.le b ↔
    a.path < b.path ∨ a.path = b.path ∧ (a.line < b.line ∨ a.line = b.line ∧ a.id ≤ b.id) := by
  simp [le]

theorem le_trans (hab : a.le b) (hbc : b.le c) : a.le c := by
  rw [le_iff] at hab hbc ⊢
  rcases hab with hab | ⟨hp, hab⟩
  · rcases hbc with hbc | ⟨hp, -⟩
    · exact Or.inl (String.lt_trans hab hbc)
    · exact Or.inl (hp ▸ hab)
  · rcases hbc with hbc | ⟨hq, hbc⟩
    · exact Or.inl (hp ▸ hbc)
    · exact Or.inr ⟨hp.trans hq, by omega⟩

theorem le_total (a b : ReferenceRow) : a.le b || b.le a := by
  rw [Bool.or_eq_true, le_iff, le_iff]
  by_cases h : a.path = b.path
  · have : a.line < b.line ∨ a.line = b.line ∧ a.id ≤ b.id ∨
        b.line < a.line ∨ b.line = a.line ∧ b.id ≤ a.id := by omega
    rcases this with hl | hl | hl | hl
    · exact Or.inl (Or.inr ⟨h, Or.inl hl⟩)
    · exact Or.inl (Or.inr ⟨h, Or.inr hl⟩)
    · exact Or.inr (Or.inr ⟨h.symm, Or.inl hl⟩)
    · exact Or.inr (Or.inr ⟨h.symm, Or.inr hl⟩)
  · by_cases hlt : a.path < b.path
    · exact Or.inl (Or.inl hlt)
    · refine Or.inr (Or.inl ?_)
      by_contra hgt
      exact h (String.le_antisymm (String.not_lt.mp hgt) (String.not_lt.mp hlt))

theorem id_eq_of_le (hab : a.le b) (hba : b.le a) : a.id = b.id := by
  rw [le_iff] at hab hba
  rcases hab with hab | ⟨hp, hab⟩
  · rcases hba with hba | ⟨hp, -⟩
    · exact absurd hba (String.lt_asymm hab)
    · exact absurd hab (hp ▸ String.lt_irrefl _)
  · rcases hba with hba | ⟨-, hba⟩
    · exact absurd hba (hp ▸ String.lt_irrefl _)
    · omega

end ReferenceRow

theorem sortedReferences_perm (rows : List ReferenceRow) :
    (Tables.sortedReferences rows).Perm rows := List.mergeSort_perm _ _

theorem pairwise_sortedReferences (rows : List ReferenceRow) :
    (Tables.sortedReferences rows).Pairwise fun a b => a.le b := by
  apply List.pairwise_mergeSort
  · intro a b c hab hbc
    exact ReferenceRow.le_trans hab hbc
  · exact ReferenceRow.le_total

/-! ## References of one path -/

/-- References by line alone. -/
def StoredReference.lineLe (a b : StoredReference) : Bool := decide (a.line ≤ b.line)

@[simp] theorem StoredReference.lineLe_iff {a b : StoredReference} :
    a.lineLe b ↔ a.line ≤ b.line := decide_eq_true_iff

theorem StoredReference.lineLe_trans (a b c : StoredReference) (hab : a.lineLe b)
    (hbc : b.lineLe c) : a.lineLe c := by
  rw [lineLe_iff] at hab hbc ⊢
  omega

theorem StoredReference.lineLe_total (a b : StoredReference) : a.lineLe b || b.lineLe a := by
  rw [Bool.or_eq_true, lineLe_iff, lineLe_iff]
  omega

/-- Sorting by line leaves the references of one line in their order. -/
theorem filter_mergeSort_line (n : Int) (refs : List StoredReference) :
    ((refs.mergeSort StoredReference.lineLe).filter fun r => r.line == n) =
      refs.filter fun r => r.line == n := by
  induction refs with
  | nil => rw [List.mergeSort_nil]
  | cons r refs ih =>
    obtain ⟨before, after, hr, hrefs, hlt⟩ :=
      List.mergeSort_cons StoredReference.lineLe_trans StoredReference.lineLe_total r refs
    rw [hrefs, List.filter_append] at ih
    rw [hr, List.filter_append, List.filter_cons, List.filter_cons, ← ih]
    by_cases hn : r.line = n
    · -- What stands before this reference has a smaller line.
      have hnone : before.filter (fun b => b.line == n) = [] := by
        rw [List.filter_eq_nil_iff]
        intro b hb heq
        have hb := hlt b hb
        rw [Bool.not_eq_true', ← Bool.not_eq_true, StoredReference.lineLe_iff] at hb
        rw [beq_iff_eq] at heq
        omega
      simp [hnone, hn]
    · simp [hn]

/-- Rows by line alone. -/
def ReferenceRow.lineLe (a b : ReferenceRow) : Bool := a.view.lineLe b.view

@[simp] theorem ReferenceRow.lineLe_iff {a b : ReferenceRow} : a.lineLe b ↔ a.line ≤ b.line :=
  StoredReference.lineLe_iff

theorem ReferenceRow.lineLe_trans (a b c : ReferenceRow) (hab : a.lineLe b) (hbc : b.lineLe c) :
    a.lineLe c := StoredReference.lineLe_trans a.view b.view c.view hab hbc

theorem ReferenceRow.lineLe_total (a b : ReferenceRow) : a.lineLe b || b.lineLe a :=
  StoredReference.lineLe_total a.view b.view

/-- Sorting by line leaves the rows of one line in their order, so that their numbers ascend where
    they did. -/
theorem pairwise_mergeSort_line {rows : List ReferenceRow}
    (hid : rows.Pairwise fun a b => a.id < b.id) :
    (rows.mergeSort ReferenceRow.lineLe).Pairwise fun a b =>
      a.line < b.line ∨ a.line = b.line ∧ a.id ≤ b.id := by
  refine (pairwise_mergeSort_stable ReferenceRow.lineLe_trans ReferenceRow.lineLe_total hid).imp
    fun {a b} h => ?_
  rw [ReferenceRow.lineLe_iff, ReferenceRow.lineLe_iff] at h
  omega

section SortedReferences

variable {rows : List ReferenceRow} (hid : rows.Pairwise fun a b => a.id < b.id)

include hid

theorem eq_of_le_of_le {a b : ReferenceRow} (ha : a ∈ rows) (hb : b ∈ rows) (hab : a.le b)
    (hba : b.le a) : a = b := by
  have hinj : (rows.map ReferenceRow.id).Nodup :=
    List.pairwise_map.mpr (hid.imp fun h => Nat.ne_of_lt h)
  exact List.inj_on_of_nodup_map hinj ha hb (ReferenceRow.id_eq_of_le hab hba)

theorem filter_sortedReferences (p : ReferenceRow → Bool) :
    (Tables.sortedReferences rows).filter p = Tables.sortedReferences (rows.filter p) := by
  unfold Tables.sortedReferences
  apply filter_mergeSort
  · intro a b c hab hbc
    exact ReferenceRow.le_trans hab hbc
  · exact ReferenceRow.le_total
  · intro a ha b hb hab hba
    exact eq_of_le_of_le hid ha hb hab hba

/-- The references of one path are read in the order of their lines, and those of one line as they
    were written. -/
theorem map_view_sortedReferences {path : String} (hpath : ∀ r ∈ rows, r.path = path) :
    (Tables.sortedReferences rows).map ReferenceRow.view =
      (rows.map ReferenceRow.view).mergeSort StoredReference.lineLe := by
  have hmap : (rows.mergeSort ReferenceRow.lineLe).map ReferenceRow.view =
      (rows.map ReferenceRow.view).mergeSort StoredReference.lineLe :=
    List.map_mergeSort fun _ _ _ _ => rfl
  have hline := pairwise_mergeSort_line hid
  have hperm := List.mergeSort_perm rows ReferenceRow.lineLe
  have hsorted := pairwise_sortedReferences rows
  have hsperm := sortedReferences_perm rows
  rw [← hmap]
  congr 1
  refine List.Perm.eq_of_pairwise ?_ hsorted ?_ (hsperm.trans hperm.symm)
  · intro a b ha hb hab hba
    exact eq_of_le_of_le hid (hsperm.mem_iff.mp ha) (hperm.mem_iff.mp hb) hab hba
  · refine hline.imp_of_mem fun ha hb h => ReferenceRow.le_iff.mpr (Or.inr ⟨?_, h⟩)
    rw [hpath _ (hperm.mem_iff.mp ha), hpath _ (hperm.mem_iff.mp hb)]

end SortedReferences

end SourceAtlas
