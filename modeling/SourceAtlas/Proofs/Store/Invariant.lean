import Mathlib.Data.List.Basic
import SourceAtlas.Proofs.Store.Transaction
import SourceAtlas.Proofs.Vector.Single

/-!
# What always holds of the tables of a store

The tables that writes leave behind are well formed, whatever was handed to them. Each part is
enforced somewhere else: by what is accepted as a vector, by the check of one other document, by the
columns of the tables, and by the order in which rows are removed.

Results:
* `dimensions_eq`: the one document that a replacement looks at speaks for all others.
* `wellFormed_write`: a write keeps tables well formed, whether it succeeds or fails.
* `wellFormed_run`: after any writes to an empty store its tables are well formed.
-/

namespace SourceAtlas

/-! ## Vectors -/

/-- What is accepted as a vector has elements, and all of them are finite. -/
theorem storedVector_sound {v : Option Nested} {xs : List Single} (h : storedVector v = .ok xs) :
    xs ≠ [] ∧ ∀ x ∈ xs, x.isFinite := by
  unfold storedVector at h
  split at h
  · cases h
  · cases h
  · cases h
  · split at h
    · cases h
    · dsimp only at h
      split at h
      · cases h
      · rename_i hshape
        split at h
        · rename_i hfinite
          cases h
          simp only [Bool.or_eq_true, not_or, Bool.not_eq_true] at hshape
          exact ⟨by simpa using hshape.2, List.all_eq_true.mp hfinite⟩
        · cases h

/-- The singles of a vector are those of its numbers. -/
theorem exists_of_storedVector {v : Nested} {xs : List Single}
    (h : storedVector (some v) = .ok xs) :
    ∃ a, v.toDoubles = .ok a ∧ xs = a.elements.map Single.ofFloat := by
  cases v with
  | one x => cases x <;> cases h
  | many ns =>
    unfold storedVector at h
    dsimp only at h
    cases ha : (Nested.many ns).toDoubles with
    | error e => rw [ha] at h; cases h
    | ok a =>
      rw [ha] at h
      dsimp only at h
      split at h
      · cases h
      · split at h
        · cases h
          exact ⟨a, rfl, rfl⟩
        · cases h

/-- The vector of a row: not empty, finite, and of as many elements as are noted beside it. -/
structure DocumentRow.Sound (d : DocumentRow) : Prop where
  nonempty : decodeVector d.vector ≠ []
  finite : ∀ x ∈ decodeVector d.vector, x.isFinite
  length : (decodeVector d.vector).length = d.dimensions
  bytes : d.vector.length = 4 * d.dimensions

theorem Draft.sound_toRow {d : Draft} {doc : StoredDocument} (h : d.document? = some doc) :
    doc.toRow.Sound := by
  obtain ⟨-, -, hv, -⟩ := Draft.document?_eq_some_iff.mp h
  obtain ⟨hne, hfin⟩ := storedVector_sound hv
  constructor
  · simpa [StoredDocument.toRow] using hne
  · simpa [StoredDocument.toRow] using hfin
  · simp [StoredDocument.toRow]
  · simp [StoredDocument.toRow, length_encodeVector]

/-! ## References -/

/-- A column holds the integers of 64 bits. -/
theorem fitsColumn_iff {n : Int} :
    fitsColumn n ↔ -0x8000000000000000 ≤ n ∧ n < 0x8000000000000000 := by
  unfold fitsColumn
  rw [Bool.and_eq_true, decide_eq_true_eq, decide_eq_true_eq]
  exact Iff.rfl

theorem DraftReference.path_of_mem {path : String} {rs : List DraftReference}
    {stored : List StoredReference} (h : rs.mapM (DraftReference.stored? path) = some stored) :
    ∀ s ∈ stored, s.path = path := by
  induction rs generalizing stored with
  | nil =>
    cases h
    simp
  | cons r rs ih =>
    rw [List.mapM_cons] at h
    obtain ⟨s, hs, h⟩ := Option.bind_eq_some_iff.mp h
    obtain ⟨rest, hr, h⟩ := Option.bind_eq_some_iff.mp h
    cases h
    exact List.forall_mem_cons.mpr ⟨(stored?_eq_some_iff.mp hs).1, ih hr⟩

/-- The references of a draft belong to its path. -/
theorem Draft.path_of_mem_references {d : Draft} {doc : StoredDocument}
    (h : d.document? = some doc) : ∀ r ∈ doc.references, r.path = doc.path :=
  DraftReference.path_of_mem (Draft.document?_eq_some_iff.mp h).2.2.2.2.2

/-- The rows of references are those of the list, with numbers in ascending order. -/
theorem exists_of_mem_numbered {id : Nat} {rs : List StoredReference} {row : ReferenceRow}
    (h : row ∈ numbered id rs) :
    id ≤ row.id ∧ row.id < id + rs.length ∧ row.view ∈ rs := by
  induction rs generalizing id with
  | nil => cases h
  | cons r rs ih =>
    rcases List.mem_cons.mp h with rfl | h
    · simp [StoredReference.toRow, ReferenceRow.view]
    · obtain ⟨hlow, hhigh, hmem⟩ := ih h
      refine ⟨by omega, ?_, List.mem_cons_of_mem _ hmem⟩
      simp only [List.length_cons]
      omega

theorem pairwise_numbered (id : Nat) (rs : List StoredReference) :
    (numbered id rs).Pairwise fun a b => a.id < b.id := by
  induction rs generalizing id with
  | nil => exact List.Pairwise.nil
  | cons r rs ih =>
    refine List.Pairwise.cons ?_ (ih (id + 1))
    intro row hrow
    exact (exists_of_mem_numbered hrow).1

/-! ## Well-formed tables -/

namespace Tables

/-- What always holds of tables. -/
structure WellFormed (t : Tables) : Prop where
  present : t.references.isSome
  distinct : (t.documents.map DocumentRow.path).Nodup
  owned : ∀ r ∈ t.rows, ∃ d ∈ t.documents, d.path = r.path
  lines : ∀ r ∈ t.rows, -0x8000000000000000 ≤ r.line ∧ r.line < 0x8000000000000000
  sound : ∀ d ∈ t.documents, d.Sound
  dimensions : ∀ d ∈ t.documents, ∀ e ∈ t.documents, d.dimensions = e.dimensions
  ascending : t.rows.Pairwise fun a b => a.id < b.id
  bounded : ∀ r ∈ t.rows, r.id < t.nextId

theorem wellFormed_empty : Tables.empty.WellFormed := by
  constructor <;> simp [empty, Tables.rows]

variable {t : Tables}

/-- Taking rows away keeps tables well formed. References go with the document that owns them. -/
theorem WellFormed.without (h : t.WellFormed) (path : Option String) :
    (t.without path).WellFormed where
  present := by simpa using h.present
  distinct := h.distinct.sublist (List.filter_sublist.map _)
  owned := by
    intro r hr
    rw [rows_without, List.mem_filter] at hr
    obtain ⟨d, hd, hp⟩ := h.owned r hr.1
    exact ⟨d, List.mem_filter.mpr ⟨hd, by rw [hp]; exact hr.2⟩, hp⟩
  lines := by
    intro r hr
    rw [rows_without, List.mem_filter] at hr
    exact h.lines r hr.1
  sound := fun d hd => h.sound d (List.mem_of_mem_filter hd)
  dimensions := fun d hd e he =>
    h.dimensions d (List.mem_of_mem_filter hd) e (List.mem_of_mem_filter he)
  ascending := by
    rw [rows_without]
    exact h.ascending.sublist List.filter_sublist
  bounded := by
    intro r hr
    rw [rows_without, List.mem_filter] at hr
    exact h.bounded r hr.1

/-- No document is left under a path that was taken away. -/
theorem path_ne_of_mem_without {path : String} {d : DocumentRow}
    (h : d ∈ (t.without path).documents) : d.path ≠ path := by
  simpa using (List.mem_filter.mp h).2

/-- The one other document that is looked at speaks for all of them: they have vectors of one
    length. -/
theorem dimensions_eq (h : t.WellFormed) {path : String} {n : Nat}
    (hfirst : ∀ row, t.documents.find? (fun r => some r.path != some path) = some row →
      row.dimensions = n) {d : DocumentRow} (hd : d ∈ (t.without path).documents) :
    d.dimensions = n := by
  obtain ⟨hd, hp⟩ := List.mem_filter.mp hd
  have hfound : (t.documents.find? fun r => some r.path != some path).isSome :=
    List.find?_isSome.mpr ⟨d, hd, hp⟩
  obtain ⟨row, hrow⟩ := Option.isSome_iff_exists.mp hfound
  rw [h.dimensions d hd row (List.mem_of_find?_eq_some hrow)]
  exact hfirst row hrow

/-- Putting a document under a path that has none keeps tables well formed, if its vector is as long
    as the others and its references are its own. -/
theorem WellFormed.put (h : t.WellFormed) {doc : StoredDocument} (hsound : doc.toRow.Sound)
    (hnew : ∀ d ∈ t.documents, d.path ≠ doc.path)
    (hdim : ∀ d ∈ t.documents, d.dimensions = doc.vector.length)
    (hpath : ∀ r ∈ doc.references, r.path = doc.path)
    (hline : ∀ r ∈ doc.references, fitsColumn r.line) :
    (t.put doc.toRow (numbered t.nextId doc.references)).WellFormed where
  present := by simpa using h.present
  distinct := by
    rw [documents_put, List.map_append, List.nodup_append]
    refine ⟨h.distinct, by simp, ?_⟩
    simpa [StoredDocument.toRow] using hnew
  owned := by
    intro r hr
    rw [rows_put h.present, List.mem_append] at hr
    rcases hr with hr | hr
    · obtain ⟨d, hd, hp⟩ := h.owned r hr
      exact ⟨d, List.mem_append_left _ hd, hp⟩
    · exact ⟨doc.toRow, by simp, (hpath _ (exists_of_mem_numbered hr).2.2).symm⟩
  lines := by
    intro r hr
    rw [rows_put h.present, List.mem_append] at hr
    rcases hr with hr | hr
    · exact h.lines r hr
    · exact fitsColumn_iff.mp (hline _ (exists_of_mem_numbered hr).2.2)
  sound := by
    intro d hd
    rw [documents_put, List.mem_append, List.mem_singleton] at hd
    rcases hd with hd | rfl
    · exact h.sound d hd
    · exact hsound
  dimensions := by
    have hall : ∀ d ∈ t.documents ++ [doc.toRow], d.dimensions = doc.vector.length := by
      intro d hd
      rw [List.mem_append, List.mem_singleton] at hd
      rcases hd with hd | rfl
      · exact hdim d hd
      · rfl
    intro d hd e he
    rw [hall d hd, hall e he]
  ascending := by
    rw [rows_put h.present, List.pairwise_append]
    refine ⟨h.ascending, pairwise_numbered _ _, fun a ha b hb => ?_⟩
    have hlow := (exists_of_mem_numbered hb).1
    have hhigh := h.bounded a ha
    omega
  bounded := by
    intro r hr
    rw [rows_put h.present, List.mem_append] at hr
    rw [nextId_put, length_numbered]
    rcases hr with hr | hr
    · have := h.bounded r hr
      omega
    · exact (exists_of_mem_numbered hr).2.1

end Tables

/-! ## Runs of writes -/

namespace Store

/-- A write keeps tables well formed, whether it succeeds or fails. -/
theorem wellFormed_write {s : Store} (h : s.tables.WellFormed) (w : Write) :
    (s.write w).2.tables.WellFormed := by
  rcases write_cases s w with ⟨e, hw⟩ | ⟨d, doc, -, hdoc, hdim, hline, hw⟩ | ⟨path, -, hw⟩
  · rw [hw]
    exact h
  · rw [hw]
    exact (h.without doc.path).put (Draft.sound_toRow hdoc)
      (fun _ hd => Tables.path_ne_of_mem_without hd) (fun _ hd => Tables.dimensions_eq h hdim hd)
      (Draft.path_of_mem_references hdoc) hline
  · rw [hw]
    exact h.without path

theorem wellFormed_writeAll {s : Store} (h : s.tables.WellFormed) (ws : List Write) :
    (s.writeAll ws).tables.WellFormed := by
  induction ws generalizing s with
  | nil => exact h
  | cons w ws ih => exact ih (wellFormed_write h w)

/-- After any writes to an empty store, whatever was handed to them and whichever of them failed,
    its tables are well formed. -/
theorem wellFormed_run (location : String) (ws : List Write) :
    ((fresh location).writeAll ws).tables.WellFormed :=
  wellFormed_writeAll Tables.wellFormed_empty ws

end Store

end SourceAtlas
