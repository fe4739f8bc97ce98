import SourceAtlas.Proofs.Number.Positive
import SourceAtlas.Proofs.Search.Cosine
import SourceAtlas.Proofs.Search.Outcome
import SourceAtlas.Proofs.Store.Frame
import SourceAtlas.Proofs.Vector.Rounding

/-!
# Which stored documents can be found

A document that was stored can be found unless its vector was rounded to zero. As a store tells
finite singles from others but not zero ones, it takes a vector all of whose elements are at most
half the least single, and no search finds that document.

Results:
* `norm_pos_iff`: which vectors of numbers have a norm greater than zero.
* `Aims.finds`, `mem_results_iff`: a search that shows as many results as there are documents finds
  those that have a direction.
* `upsert_searchable`: which documents can be found once they are stored.
-/

namespace SourceAtlas

open Number

/-! ## Norms -/

/-- A sum of squares of numbers is a number. -/
theorem isNaN_foldl {s : Float} {p : Prop} (hs : Weighed p s.toModel.unpack)
    (h : s.isNaN = false) {xs : List Float} (hxs : ∀ x ∈ xs, x.isNaN = false) :
    ((xs.zip xs).foldl (fun s q => s + q.1 * q.2) s).isNaN = false := by
  induction xs generalizing s p with
  | nil => exact h
  | cons x xs ih =>
    rw [List.forall_mem_cons] at hxs
    exact ih (weighed_add hs (weighed_square x))
      (isNaN_add hs (weighed_square x) h (isNaN_square hxs.1)) hxs.2

/-- The norm of a vector of numbers is greater than zero iff the square of one of them does not
    vanish. -/
theorem norm_pos_iff {xs : List Float} (hxs : ∀ x ∈ xs, x.isNaN = false) :
    0 < norm xs ↔ ∃ x ∈ xs, halfStep < steps x ^ 2 := by
  have hzero : Weighed True (0 : Float).toModel.unpack := Or.inl ⟨trivial, .positive, rfl⟩
  have hdot := weighed_foldl hzero xs
  have hnan := isNaN_foldl hzero rfl hxs
  rw [norm, dot, pos_iff_of_weighed (weighed_sqrt hdot) (isNaN_sqrt hdot hnan), true_and]
  simp only [not_forall, not_le, exists_prop]

/-- A vector of finite singles has a direction iff one of them is not zero. -/
theorem norm_toFloat_pos_iff {v : List Single} (hv : ∀ e ∈ v, e.isFinite) :
    0 < norm (v.map Single.toFloat) ↔ ∃ e ∈ v, e.magnitude ≠ 0 := by
  rw [norm_pos_iff]
  · simp only [List.mem_map, exists_exists_and_eq_and]
    refine exists_congr fun e => and_congr_right fun he => ⟨fun h hzero => ?_, fun h => ?_⟩
    · have hsteps := (beq_zero_iff _).mp ((Single.toFloat_beq_zero_iff (hv e he)).mpr hzero)
      rw [hsteps] at h
      exact absurd h (Nat.not_lt_zero _)
    · exact Single.halfStep_lt_square (hv e he) h
  · intro x hx
    obtain ⟨e, he, rfl⟩ := List.mem_map.mp hx
    exact Single.isNaN_toFloat (hv e he)

/-! ## Searches -/

/-- A query is answered with a vector of a given length that has a norm. -/
def Aims (embed : Embedder) (query : String) (n : Nat) : Prop :=
  ∃ ss v, embed query = .ok (.ofScalars ss) ∧ ss.mapM Scalar.toFloat? = some v ∧ v.length = n ∧
    (norm v == 0) = false

/-- The vector of such a query is accepted. -/
theorem Aims.exists_queryVector {embed : Embedder} {query : String} {n : Nat}
    (h : Aims embed query n) :
    ∃ v, v.length = n ∧ queryVector (embed query) (some n) = .ok v := by
  obtain ⟨ss, v, hanswer, hv, hlength, hnorm⟩ := h
  have hall : v.all (· == 0) = false := by
    rw [List.all_eq_false]
    by_contra hzero
    simp only [not_exists, not_and, not_not] at hzero
    rw [← Bool.not_eq_true, norm_eq_zero_iff] at hnorm
    refine hnorm fun x hx => ?_
    rw [(beq_zero_iff x).mp (hzero x hx)]
    exact Nat.zero_le _
  refine ⟨v, hlength, ?_⟩
  rw [hanswer, queryVector_eq hv, hall, hnorm]
  simp [hlength]

/-- When as many results are wanted as there are documents, all are found that have a score. -/
theorem mem_topResults_iff {v : List Float} {docs : List StoredDocument} {k : Int}
    (hk : (docs.length : Int) ≤ k) (rule : NameRule) (path : String) :
    path ∈ (topResults rule k (scored v docs)).map SearchResult.path ↔
      ∃ d ∈ docs, d.path = path ∧ d.usable v := by
  have hfew : (scored v docs).length ≤ docs.length := by
    rw [length_scored]
    exact List.countP_le_length
  have htake : ((Rank.rank (scored v docs)).take
      (resultCount k (scored v docs).length)) = Rank.rank (scored v docs) := by
    refine List.take_of_length_le ?_
    rw [(Rank.rank_perm _).length_eq]
    unfold resultCount
    omega
  rw [topResults_eq, htake, List.map_map, List.mem_map]
  simp only [(Rank.rank_perm _).mem_iff, mem_scored, scoreOf_eq_ok_iff]
  constructor
  · rintro ⟨i, ⟨hd, hu, -⟩, hp⟩
    exact ⟨i.1, hd, hp, hu⟩
  · rintro ⟨d, hd, hp, hu⟩
    exact ⟨(d, similarity d.floats v), ⟨hd, hu, rfl⟩, hp⟩

/-- No search finds a document without a direction. -/
theorem exists_of_mem_topResults {v : List Float} {docs : List StoredDocument} {k : Int}
    {rule : NameRule} {path : String}
    (h : path ∈ (topResults rule k (scored v docs)).map SearchResult.path) :
    ∃ d ∈ docs, d.path = path ∧ d.usable v := by
  rw [topResults_eq, List.map_map, List.mem_map] at h
  obtain ⟨i, hi, hp⟩ := h
  have hscored := (Rank.rank_perm _).mem_iff.mp (List.mem_of_mem_take hi)
  obtain ⟨hd, hscore⟩ := mem_scored.mp hscored
  exact ⟨i.1, hd, hp, (scoreOf_eq_ok_iff.mp hscore).1⟩

/-! ## Stored documents -/

namespace Store

/-- What a store shows after a write that succeeded: all vectors are taken to be as long as the new
    one, and under the new path there is the new document alone. -/
structure Shown (s : Store) (doc : StoredDocument) (docs : List StoredDocument) : Prop where
  all : s.all = .ok docs
  count : s.count = .ok docs.length
  dimensions : s.tables.dimensions = some doc.vector.length
  get : ∃ shown ∈ docs, s.get doc.path = .ok (some shown) ∧ shown.path = doc.path
  vector : ∀ shown ∈ docs, shown.path = doc.path → shown.vector = doc.vector

variable {s : Store} {d : Draft} {doc : StoredDocument}

/-- The first row after a write has the length of the written vector, whichever row it is. -/
theorem dimensions_upsert (h : (s.upsert d).1 = .ok ()) (hdoc : d.document? = some doc) :
    (s.upsert d).2.tables.dimensions = some doc.vector.length := by
  have hok : s.upsert d = (.ok (), (s.upsert d).2) := Prod.ext h rfl
  obtain ⟨-, -, -, doc', hdoc', hdim, -, hs⟩ := upsert_ok_iff.mp hok
  cases hdoc.symm.trans hdoc'
  rw [hs]
  unfold Tables.dimensions
  rw [Tables.documents_put, Tables.documents_without, List.head?_append, List.head?_filter]
  cases hfirst : s.tables.documents.find? (fun r => some r.path != some doc.path) with
  | none => rfl
  | some row => exact congrArg some (hdim row hfirst)

theorem exists_shown (h : (s.upsert d).1 = .ok ()) (hdoc : d.document? = some doc) :
    ∃ docs, (s.upsert d).2.Shown doc docs := by
  obtain ⟨doc', hdoc', -, hbears⟩ := exists_bears_of_upsert h
  cases hdoc.symm.trans hdoc'
  have ho := hbears.isOpen
  have hpresent := present_upsert h
  have hrow : doc.toRow ∈ (s.upsert d).2.tables.documentsAt doc.path := by
    rw [hbears.document]
    exact List.mem_singleton_self _
  have hlisted : Tables.document (s.upsert d).2.tables.rows doc.toRow ∈
      (s.upsert d).2.tables.listed :=
    List.mem_map_of_mem ((Tables.sortedDocuments_perm _).mem_iff.mpr (List.mem_of_mem_filter hrow))
  refine ⟨_, all_eq ho hpresent, ?_, dimensions_upsert h hdoc, ⟨_, hlisted, ?_, rfl⟩,
    fun shown hshown hpath => ?_⟩
  · rw [count_eq ho, Tables.listed, List.length_map, (Tables.sortedDocuments_perm _).length_eq]
  · rw [get_eq ho hpresent, Tables.row?_eq_head?, hbears.document]
    rfl
  · obtain ⟨row, hrow', rfl⟩ := List.mem_map.mp hshown
    have hat : row ∈ (s.upsert d).2.tables.documentsAt doc.path :=
      List.mem_filter.mpr ⟨(Tables.sortedDocuments_perm _).mem_iff.mp hrow', beq_iff_eq.mpr hpath⟩
    rw [hbears.document, List.mem_singleton] at hat
    rw [hat]
    exact decodeVector_encodeVector doc.vector

variable {docs : List StoredDocument}

theorem Shown.usable_eq (h : s.Shown doc docs) {shown : StoredDocument} (hshown : shown ∈ docs)
    (hpath : shown.path = doc.path) (v : List Float) : shown.usable v = doc.usable v := by
  have hvector := h.vector shown hshown hpath
  unfold StoredDocument.usable StoredDocument.floats
  rw [hvector]

/-- A document with a direction is found. -/
theorem Shown.finds (h : s.Shown doc docs) (hnorm : 0 < norm doc.floats) {embed : Embedder}
    {query : String} (haims : Aims embed query doc.vector.length) {k : Int}
    (hk : (docs.length : Int) ≤ k) (rule : NameRule) :
    ∃ results, (s.search embed rule query k).results = .ok results ∧
      doc.path ∈ results.map SearchResult.path := by
  obtain ⟨v, hlength, hv⟩ := haims.exists_queryVector
  rw [← h.dimensions] at hv
  refine ⟨_, results_search h.all hv rule k, (mem_topResults_iff hk rule doc.path).mpr ?_⟩
  obtain ⟨shown, hshown, -, hpath⟩ := h.get
  refine ⟨shown, hshown, hpath, ?_⟩
  rw [h.usable_eq hshown hpath, StoredDocument.usable, decide_eq_true hnorm, hlength]
  simp

/-- A document without a direction is not found. -/
theorem Shown.not_found (h : s.Shown doc docs) (hnorm : ¬ 0 < norm doc.floats) {embed : Embedder}
    {query : String} {k : Int} {rule : NameRule} {results : List SearchResult}
    (hresults : (s.search embed rule query k).results = .ok results) :
    doc.path ∉ results.map SearchResult.path := by
  obtain ⟨shown, hshown, -, -⟩ := h.get
  intro hmem
  cases hq : queryVector (embed query) s.tables.dimensions with
  | error e =>
    obtain ⟨first, rest, hdocs⟩ := List.exists_cons_of_ne_nil (List.ne_nil_of_mem hshown)
    rw [search_of_error ⟨first, rest, hdocs ▸ h.all⟩ hq] at hresults
    cases hresults
  | ok v =>
    rw [results_search h.all hq] at hresults
    cases hresults
    obtain ⟨found, hfound, hpath, husable⟩ := exists_of_mem_topResults hmem
    rw [h.usable_eq hfound hpath, StoredDocument.usable, decide_eq_false hnorm, Bool.and_false]
      at husable
    cases husable

/-! ## Vectors of doubles -/

/-- A vector of doubles is stored as the nearest singles, all of them finite. -/
theorem vector_of_document? {xs : List Float}
    (hvector : d.vector = some (.ofScalars (xs.map .float))) (hdoc : d.document? = some doc) :
    doc.vector = xs.map Single.ofFloat ∧ ∀ e ∈ doc.vector, e.isFinite := by
  have hstored := (Draft.document?_eq_some_iff.mp hdoc).2.2.1
  refine ⟨?_, (storedVector_sound hstored).2⟩
  rw [hvector] at hstored
  obtain ⟨a, ha, hsingles⟩ := exists_of_storedVector hstored
  rw [Nested.toDoubles_ofScalars, mapM_toFloat?_floats] at ha
  cases ha
  exact hsingles

/-- **Which documents can be found.** When a document with a vector of doubles was stored, then
    either one of them is more than half the least single: the stored vector is not zero, and the
    document is found by every query that is answered with a vector of the same length that has a
    norm, when as many results are wanted as there are documents. Or none is: the stored vector is
    zero, and no search finds the document. -/
theorem upsert_searchable {xs : List Float}
    (hvector : d.vector = some (.ofScalars (xs.map .float))) (hok : (s.upsert d).1 = .ok ()) :
    ∃ doc, d.path = some doc.path ∧ (s.upsert d).2.get doc.path = .ok (some doc) ∧
      doc.vector = xs.map Single.ofFloat ∧
      ((∃ x ∈ xs, Single.halfLeast < steps x) →
        (∃ e ∈ doc.vector, (e.toFloat == 0) = false) ∧
        ∀ embed query, Aims embed query doc.vector.length → ∀ n k, (s.upsert d).2.count = .ok n →
          (n : Int) ≤ k → ∀ rule, ∃ results,
            ((s.upsert d).2.search embed rule query k).results = .ok results ∧
              doc.path ∈ results.map SearchResult.path) ∧
      ((∀ x ∈ xs, steps x ≤ Single.halfLeast) →
        (∀ e ∈ doc.vector, (e.toFloat == 0) = true) ∧
        ∀ embed rule query k results,
          ((s.upsert d).2.search embed rule query k).results = .ok results →
            doc.path ∉ results.map SearchResult.path) := by
  obtain ⟨doc, hdoc, -, -⟩ := exists_bears_of_upsert hok
  obtain ⟨hsingles, hfinite⟩ := vector_of_document? hvector hdoc
  obtain ⟨docs, hshown⟩ := exists_shown hok hdoc
  obtain ⟨shown, hmem, hget, hpath⟩ := hshown.get
  have hsame := hshown.vector shown hmem hpath
  have hdirected : 0 < norm doc.floats ↔ ∃ x ∈ xs, Single.halfLeast < steps x := by
    rw [StoredDocument.floats, norm_toFloat_pos_iff hfinite, hsingles]
    simp only [List.mem_map, exists_exists_and_eq_and, ne_eq,
      Single.magnitude_ofFloat_eq_zero_iff, not_le]
  refine ⟨shown, ?_, hpath ▸ hget, hsame.trans hsingles, fun hgreat => ⟨?_, ?_⟩,
    fun hsmall => ⟨?_, ?_⟩⟩
  · rw [hpath]
    exact (Draft.document?_eq_some_iff.mp hdoc).1
  · obtain ⟨e, he, hne⟩ := (norm_toFloat_pos_iff hfinite).mp (hdirected.mpr hgreat)
    refine ⟨e, hsame ▸ he, ?_⟩
    rwa [← Bool.not_eq_true, Single.toFloat_beq_zero_iff (hfinite e he)]
  · intro embed query haims n k hcount hk rule
    rw [hshown.count] at hcount
    cases hcount
    rw [hpath]
    exact hshown.finds (hdirected.mpr hgreat) (hsame ▸ haims) hk rule
  · intro e he
    rw [hsame] at he
    rw [Single.toFloat_beq_zero_iff (hfinite e he)]
    rw [hsingles] at he
    obtain ⟨x, hx, rfl⟩ := List.mem_map.mp he
    exact (Single.magnitude_ofFloat_eq_zero_iff x).mpr (hsmall x hx)
  · intro embed rule query k results hresults
    rw [hpath]
    refine hshown.not_found (fun hpos => ?_) hresults
    obtain ⟨x, hx, hlt⟩ := hdirected.mp hpos
    exact absurd (hsmall x hx) (Nat.not_le.mpr hlt)

/-! ## Vectors of one element -/

/-- A document with a vector of one element. -/
def draftWith (x : Float) : Draft :=
  { plainDraft "a.js" with vector := some (.ofScalars [.float x]) }

theorem aims_unit (query : String) : Aims (answering unit) query 1 :=
  ⟨unit, [1], rfl, rfl, rfl, by decide +kernel⟩

/-- A document whose element is one is found. -/
theorem upsert_searchable_one :
    ((fresh ":memory:").upsert (draftWith 1)).1 = .ok () ∧
    (∃ x ∈ [(1 : Float)], Single.halfLeast < steps x) ∧
    ∃ results, (((fresh ":memory:").upsert (draftWith 1)).2.search (answering unit) ⟨[], 1⟩ "x"
        1).results = .ok results ∧ "a.js" ∈ results.map SearchResult.path := by
  have hvector : (draftWith 1).vector = some (.ofScalars ([1].map .float)) := rfl
  have hok : ((fresh ":memory:").upsert (draftWith 1)).1 = .ok () := by rfl
  have hcount : ((fresh ":memory:").upsert (draftWith 1)).2.count = .ok 1 := by rfl
  have hgreat : ∃ x ∈ [(1 : Float)], Single.halfLeast < steps x :=
    ⟨1, List.mem_singleton_self _, by decide +kernel⟩
  obtain ⟨doc, hpath, -, hsingles, hfound, -⟩ := upsert_searchable hvector hok
  have hlength : doc.vector.length = 1 := by rw [hsingles]; rfl
  have hpath : "a.js" = doc.path := Option.some.inj hpath
  rw [hpath]
  exact ⟨hok, hgreat, (hfound hgreat).2 _ _ (hlength ▸ aims_unit "x") 1 1 hcount (le_refl _) _⟩

/-- A double of less than half the least single. -/
def tiny : Float := 1e-50

theorem norm_ofFloat_tiny : ¬ 0 < norm ([Single.ofFloat tiny].map Single.toFloat) := by
  decide +kernel

/-- A document whose element is finite and not zero is stored, but a search for as many results as
    there are documents does not find it. -/
theorem upsert_tiny :
    ((tiny == 0) = false ∧ tiny.isFinite) ∧
    ((fresh ":memory:").upsert (draftWith tiny)).1 = .ok () ∧
    ((fresh ":memory:").upsert (draftWith tiny)).2.count = .ok 1 ∧
    Aims (answering unit) "x" 1 ∧
    ∃ results, (((fresh ":memory:").upsert (draftWith tiny)).2.search (answering unit) ⟨[], 1⟩ "x"
        1).results = .ok results ∧ "a.js" ∉ results.map SearchResult.path := by
  have hvector : (draftWith tiny).vector = some (.ofScalars ([tiny].map .float)) := rfl
  have hok : ((fresh ":memory:").upsert (draftWith tiny)).1 = .ok () := by rfl
  obtain ⟨doc, hdoc, -, -⟩ := exists_bears_of_upsert hok
  obtain ⟨docs, hshown⟩ := exists_shown hok hdoc
  obtain ⟨hsingles, -⟩ := vector_of_document? hvector hdoc
  have hlength : doc.vector.length = 1 := by rw [hsingles]; rfl
  have hnorm : ¬ 0 < norm doc.floats := by
    rw [StoredDocument.floats, hsingles]
    exact norm_ofFloat_tiny
  have hpath : "a.js" = doc.path := Option.some.inj (Draft.document?_eq_some_iff.mp hdoc).1
  obtain ⟨v, -, hv⟩ := (aims_unit "x").exists_queryVector
  rw [← hlength, ← hshown.dimensions] at hv
  have hresults := results_search hshown.all hv ⟨[], 1⟩ 1
  refine ⟨by decide +kernel, hok, by rfl, aims_unit "x", _, hresults, ?_⟩
  rw [hpath]
  exact hshown.not_found hnorm hresults

end Store

end SourceAtlas
