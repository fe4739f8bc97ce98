import SourceAtlas.Proofs.Number.Underflow
import SourceAtlas.Proofs.Search.Top
import SourceAtlas.Proofs.Vector.Shape

/-!
# What a search can come to

A search answers with results, or it fails because the query has no usable vector or because the
store cannot be read. Two kinds of query vectors slip through to a failure of another family: one
with an integer beyond every double, and one that is not zero but so short that its norm is.

Results:
* `norm_eq_zero_iff`: the norm of a vector is zero iff the squares of all its elements vanish.
* `queryVector_eq_tooLarge`, `queryVector_eq_zeroNorm`, `queryVector_cases`: what comes of the
  numbers that an embedder answers with.
* `search_outcome`: all that a search of any store can come to.
-/

namespace SourceAtlas

open Number

/-! ## Norms -/

/-- A sum of squares vanishes iff all of them do. -/
theorem weighed_foldl {s : Float} {p : Prop} (hs : Weighed p s.toModel.unpack) (xs : List Float) :
    Weighed (p ∧ ∀ x ∈ xs, steps x ^ 2 ≤ halfStep)
      ((xs.zip xs).foldl (fun s q => s + q.1 * q.2) s).toModel.unpack := by
  induction xs generalizing s p with
  | nil => simpa using hs
  | cons x xs ih =>
    have h := ih (weighed_add hs (weighed_square x))
    rw [List.forall_mem_cons, ← and_assoc]
    exact h

/-- **Where a norm vanishes.** The norm of a vector is zero iff the square of each element is at
    most half the least double, where it rounds to zero. -/
theorem norm_eq_zero_iff (xs : List Float) :
    (norm xs == 0) = true ↔ ∀ x ∈ xs, steps x ^ 2 ≤ halfStep := by
  have hzero : Weighed True (0 : Float).toModel.unpack := Or.inl ⟨trivial, .positive, rfl⟩
  rw [norm, dot, beq_zero_of_weighed (weighed_sqrt (weighed_foldl hzero xs)), true_and]

/-! ## Query vectors -/

/-- One of the numbers is an integer beyond every double. -/
def Exceeds (ss : List Scalar) : Prop := ∃ n, .int n ∈ ss ∧ overflowBound ≤ n.natAbs

/-- Not all elements are zero, but the square of each is at most half the least double. -/
def Vanishes (v : List Float) : Prop :=
  (∃ x ∈ v, steps x ≠ 0) ∧ ∀ x ∈ v, steps x ^ 2 ≤ halfStep

theorem vanishes_iff {v : List Float} :
    Vanishes v ↔ v.all (· == 0) = false ∧ (norm v == 0) = true := by
  rw [norm_eq_zero_iff, List.all_eq_false]
  simp only [beq_zero_iff]
  rfl

section QueryVector

variable {ss : List Scalar} {v : List Float} {expected : Option Nat}

/-- A query vector that has as many elements as the stored ones, if any are stored. -/
def Fits (v : List Float) (expected : Option Nat) : Prop := ∀ n, expected = some n → v.length = n

theorem queryVector_eq_tooLarge (h : Exceeds ss) :
    queryVector (.ok (.ofScalars ss)) expected = .error (.array .tooLarge) := by
  have hdoubles : (Nested.ofScalars ss).toDoubles = .error .tooLarge := by
    rw [Nested.toDoubles_ofScalars, Nested.mapM_toFloat?_eq_none_iff.mpr h]
  simp only [queryVector, hdoubles, Except.mapError, ok_bind]
  rfl

/-- What comes of a list of doubles. -/
theorem queryVector_eq (hv : ss.mapM Scalar.toFloat? = some v) :
    queryVector (.ok (.ofScalars ss)) expected =
      if v.all (· == 0) then .error .noDirection
      else match expected with
        | some n => if v.length ≠ n then .error (.dimensions v.length n)
          else if norm v == 0 then .error .zeroNorm else .ok v
        | none => if norm v == 0 then .error .zeroNorm else .ok v := by
  have hdoubles : (Nested.ofScalars ss).toDoubles = .ok ⟨[ss.length], v⟩ := by
    rw [Nested.toDoubles_ofScalars, hv]
  unfold queryVector
  simp only [Except.mapError, hdoubles, ok_bind, throw_bind, List.length_singleton,
    bne_self_eq_false, Bool.false_or]
  cases expected with
  | none => rfl
  | some n =>
    simp only [bne_iff_ne]
    rfl

theorem queryVector_eq_zeroNorm (hv : ss.mapM Scalar.toFloat? = some v) (hvanishes : Vanishes v)
    (hfits : Fits v expected) :
    queryVector (.ok (.ofScalars ss)) expected = .error .zeroNorm := by
  obtain ⟨hz, hn⟩ := vanishes_iff.mp hvanishes
  rw [queryVector_eq hv, hz, hn]
  cases expected with
  | none => rfl
  | some n => simp [hfits n rfl]

/-- A list of doubles is accepted, vanishes or is refused with a failure of the embedding. -/
theorem queryVector_cases (hv : ss.mapM Scalar.toFloat? = some v) (expected : Option Nat) :
    queryVector (.ok (.ofScalars ss)) expected = .ok v ∨ (Vanishes v ∧ Fits v expected) ∨
      ∃ e, queryVector (.ok (.ofScalars ss)) expected = .error e ∧ e.family = .embedding := by
  rw [queryVector_eq hv]
  cases hz : v.all (· == 0) with
  | true => exact Or.inr (Or.inr ⟨_, rfl, rfl⟩)
  | false =>
    by_cases hfits : Fits v expected
    · cases hn : norm v == 0 with
      | true => exact Or.inr (Or.inl ⟨vanishes_iff.mpr ⟨hz, hn⟩, hfits⟩)
      | false =>
        left
        cases expected with
        | none => rfl
        | some n => simp [hfits n rfl]
    · obtain ⟨n, rfl, hn⟩ : ∃ n, expected = some n ∧ v.length ≠ n := by
        simpa [Fits] using hfits
      exact Or.inr (Or.inr ⟨.dimensions v.length n, by simp [hn], rfl⟩)

end QueryVector

/-! ## Searches -/

namespace Store

/-- A store answers with documents. Only then is there a question for the embedder. -/
def Asks (s : Store) : Prop := ∃ d ds, s.all = .ok (d :: ds)

theorem family_of_all_eq_error {s : Store} {e : StoreError} (h : s.all = .error e) :
    e.family = .unavailable := by
  unfold all at h
  rcases bind_eq_error_iff.mp h with hclosed | ⟨t, -, h⟩
  · unfold readable at hclosed
    split at hclosed
    · cases hclosed
    · cases hclosed
      rfl
  · rcases bind_eq_error_iff.mp h with hmissing | ⟨rows, -, h⟩
    · unfold referencesOf at hmissing
      cases hr : t.references with
      | none => rw [hr] at hmissing; cases hmissing; rfl
      | some rows => rw [hr] at hmissing; cases hmissing
    · cases h

/-- A search fails with what its query vector fails with. -/
theorem search_of_error {s : Store} (hs : s.Asks) {embed : Embedder} {query : String}
    {e : SearchError} (hv : queryVector (embed query) s.tables.dimensions = .error e)
    (rule : NameRule) (k : Int) : (s.search embed rule query k).results = .error e := by
  obtain ⟨d, ds, hall⟩ := hs
  unfold search
  rw [hall]
  dsimp only
  rw [hv]

section Outcome

variable {s : Store} {embed : Embedder} {query : String} {ss : List Scalar}

/-- **How a search can end.** Whatever numbers an embedder answers with, a search of any store
    answers with results, or it fails for the embedding or because the store is unavailable, with
    two exceptions. When the store has documents, an integer beyond every double is a failure of
    the array; and so is a vector that fits and is not zero, but of which the square of each
    element is at most half the least double, for its norm. -/
theorem search_outcome (hanswer : embed query = .ok (.ofScalars ss)) (rule : NameRule) (k : Int) :
    (s.Asks → Exceeds ss →
      (s.search embed rule query k).results = .error (.array .tooLarge)) ∧
    (s.Asks → ∀ v, ss.mapM Scalar.toFloat? = some v → Vanishes v → Fits v s.tables.dimensions →
      (s.search embed rule query k).results = .error .zeroNorm) ∧
    ((s.Asks → ¬ Exceeds ss ∧
        ∀ v, ss.mapM Scalar.toFloat? = some v → ¬ (Vanishes v ∧ Fits v s.tables.dimensions)) →
      (∃ results, (s.search embed rule query k).results = .ok results) ∨
        ∃ e, (s.search embed rule query k).results = .error e ∧
          (e.family = .embedding ∨ e.family = .unavailable)) := by
  refine ⟨fun hs h => ?_, fun hs v hv hvanishes hfits => ?_, fun husual => ?_⟩
  · exact search_of_error hs (hanswer ▸ queryVector_eq_tooLarge h) rule k
  · exact search_of_error hs (hanswer ▸ queryVector_eq_zeroNorm hv hvanishes hfits) rule k
  · cases hall : s.all with
    | error e =>
      right
      refine ⟨.store e, ?_, Or.inr (family_of_all_eq_error hall)⟩
      unfold search
      rw [hall]
    | ok docs =>
      cases docs with
      | nil =>
        left
        refine ⟨[], ?_⟩
        unfold search
        rw [hall]
      | cons d ds =>
        -- Only here is the embedder asked.
        obtain ⟨hbounded, hdirected⟩ := husual ⟨d, ds, hall⟩
        obtain ⟨v, hv⟩ := Option.ne_none_iff_exists'.mp
          (mt Nested.mapM_toFloat?_eq_none_iff.mp hbounded)
        rcases queryVector_cases hv s.tables.dimensions with hok | hvan | ⟨e, he, hfamily⟩
        · exact Or.inl ⟨_, results_search hall (hanswer ▸ hok) rule k⟩
        · exact absurd hvan (hdirected v hv)
        · exact Or.inr ⟨e, search_of_error ⟨d, ds, hall⟩ (hanswer ▸ he) rule k, Or.inl hfamily⟩

end Outcome

/-! ## Two documents with one vector -/

theorem asks_twins : ((fresh ":memory:").writeAll twins).Asks := by
  have hopen : ((fresh ":memory:").writeAll twins).isOpen := by rw [writeAll_frame]; rfl
  have hall := all_eq hopen (wellFormed_run ":memory:" twins).present
  have hlength : ((fresh ":memory:").writeAll twins).tables.listed.length = 2 := by
    rw [Tables.listed, List.length_map, (Tables.sortedDocuments_perm _).length_eq, documents_twins]
    rfl
  obtain ⟨d, ds, hlisted⟩ := List.exists_cons_of_length_eq_add_one hlength
  exact ⟨d, ds, hlisted ▸ hall⟩

theorem dimensions_twins : ((fresh ":memory:").writeAll twins).tables.dimensions = some 1 := by
  unfold Tables.dimensions
  rw [documents_twins]
  rfl

theorem fits_twins (x : Float) :
    Fits [x] ((fresh ":memory:").writeAll twins).tables.dimensions := by
  rw [dimensions_twins]
  exact fun n hn => Option.some.inj hn

/-- A vector so short that its square is no double. -/
def faint : List Scalar := [.float 1e-200]

theorem vanishes_faint : Vanishes [1e-200] := by
  unfold Vanishes
  decide +kernel

/-- An integer of four hundred digits. -/
def huge : List Scalar := [.int (Nat.pow 10 400)]

theorem exceeds_huge : Exceeds huge := ⟨Nat.pow 10 400, .head _, by decide +kernel⟩

/-- The embedder that has one answer for all texts. -/
def answering (ss : List Scalar) : Embedder := fun _ => .ok (.ofScalars ss)

/-- A vector of length one. -/
def unit : List Scalar := [.float 1]

theorem usual_unit {v : List Float} (hv : unit.mapM Scalar.toFloat? = some v) : ¬ Vanishes v := by
  obtain rfl : [1] = v := Option.some.inj hv
  unfold Vanishes
  decide +kernel

theorem search_outcome_twins :
    ((fresh ":memory:").writeAll twins).Asks ∧ Exceeds huge ∧
      faint.mapM Scalar.toFloat? = some [1e-200] ∧ Vanishes [1e-200] ∧
      Fits [1e-200] ((fresh ":memory:").writeAll twins).tables.dimensions ∧
      (((fresh ":memory:").writeAll twins).search (answering huge) ⟨[], 1⟩ "x" 1).results =
        .error (.array .tooLarge) ∧
      (((fresh ":memory:").writeAll twins).search (answering faint) ⟨[], 1⟩ "x" 1).results =
        .error .zeroNorm ∧
      ¬ Exceeds unit ∧ (∀ v, unit.mapM Scalar.toFloat? = some v → ¬ Vanishes v) ∧
      ((∃ results, (((fresh ":memory:").writeAll twins).search (answering unit) ⟨[], 1⟩ "x"
          1).results = .ok results) ∨
        ∃ e, (((fresh ":memory:").writeAll twins).search (answering unit) ⟨[], 1⟩ "x" 1).results =
          .error e ∧ (e.family = .embedding ∨ e.family = .unavailable)) := by
  have hhuge : answering huge "x" = .ok (.ofScalars huge) := rfl
  have hfaint : answering faint "x" = .ok (.ofScalars faint) := rfl
  have hunit : answering unit "x" = .ok (.ofScalars unit) := rfl
  have hbounded : ¬ Exceeds unit := by simp [Exceeds, unit]
  exact ⟨asks_twins, exceeds_huge, rfl, vanishes_faint, fits_twins _,
    (search_outcome hhuge ⟨[], 1⟩ 1).1 asks_twins exceeds_huge,
    (search_outcome hfaint ⟨[], 1⟩ 1).2.1 asks_twins _ rfl vanishes_faint (fits_twins _),
    hbounded, fun _ => usual_unit,
    (search_outcome hunit ⟨[], 1⟩ 1).2.2 fun _ =>
      ⟨hbounded, fun _ hv h => usual_unit hv h.1⟩⟩

/-- A query vector that fits and is not zero, but for which a search neither answers nor fails as
    searches do. -/
theorem search_faint :
    (∀ results, (((fresh ":memory:").writeAll twins).search
      (answering faint) ⟨[], 1⟩ "x" 1).results ≠ .ok results) ∧
    ∀ e, (((fresh ":memory:").writeAll twins).search
      (answering faint) ⟨[], 1⟩ "x" 1).results = .error e →
        e.family ≠ .embedding ∧ e.family ≠ .unavailable := by
  have hquery : queryVector (answering faint "x")
      ((fresh ":memory:").writeAll twins).tables.dimensions = .error .zeroNorm :=
    queryVector_eq_zeroNorm rfl vanishes_faint (fits_twins _)
  rw [search_of_error asks_twins hquery]
  refine ⟨nofun, fun e he => ?_⟩
  cases he
  exact ⟨nofun, nofun⟩

end Store

end SourceAtlas
