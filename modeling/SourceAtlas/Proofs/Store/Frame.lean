import SourceAtlas.Proofs.Store.Views

/-!
# What a write does to a path

A document is written under its own path: what a store has under any other stays, row by row,
whatever state the store is in. Under its own path the document is alone afterwards, with all its
references.

Results:
* `SameAt.hash_eq`: what a store knows of a path depends on nothing under other paths.
* `sameAt_upsert`: a write leaves all other paths as they are.
* `exists_bears_of_upsert`: what it puts under its own, if it succeeds.
-/

namespace SourceAtlas

/-! ## Rows under a path -/

namespace Tables

variable {t : Tables} {p : String}

/-- The rows of the documents under a path. -/
def documentsAt (t : Tables) (p : String) : List DocumentRow :=
  t.documents.filter fun d => d.path == p

theorem row?_eq_head? : t.row? p = (t.documentsAt p).head? := List.head?_filter.symm

/-- Of the rows of documents a write touches those under its path. -/
theorem documentsAt_put_without (row : DocumentRow) (news : List ReferenceRow) :
    ((t.without row.path).put row news).documentsAt p =
      if p = row.path then [row] else t.documentsAt p := by
  unfold documentsAt
  rw [documents_put, documents_without, List.filter_append, List.filter_filter]
  split
  · rename_i h
    simp [h]
  · rename_i h
    have hkept : t.documents.filter (fun d => d.path == p && some d.path != some row.path) =
        t.documents.filter fun d => d.path == p := by
      refine List.filter_congr fun d _ => ?_
      by_cases hd : d.path = p <;> simp [hd, h]
    simp [hkept, Ne.symm h]

/-- Of the rows of references it touches those that its path owns. -/
theorem owned_put_without (row : DocumentRow) {news : List ReferenceRow}
    (href : t.references.isSome) (hnews : ∀ r ∈ news, r.path = row.path) :
    ((t.without row.path).put row news).owned p =
      if p = row.path then news else t.owned p := by
  have hgone : ∀ r ∈ (t.without row.path).rows, r.path ≠ row.path := by
    intro r hr
    rw [rows_without, List.mem_filter] at hr
    simpa using hr.2
  rw [owned_put (by simpa using href) hgone hnews, owned_without]
  split <;> rfl

end Tables

/-! ## Stores under a path -/

/-- Nothing under a path tells two stores apart, which differ in nothing but their tables. -/
structure Store.SameAt (s s' : Store) (p : String) : Prop where
  frame : s' = { s with tables := s'.tables }
  documents : s'.tables.documentsAt p = s.tables.documentsAt p
  references : s'.tables.owned p = s.tables.owned p

/-- Under the path of a document an open store has that document alone, with its references in their
    order. -/
structure Store.Bears (s : Store) (doc : StoredDocument) : Prop where
  isOpen : s.isOpen
  document : s.tables.documentsAt doc.path = [doc.toRow]
  references : ∃ id, s.tables.owned doc.path = numbered id doc.references

namespace Store

variable {s s' s'' : Store} {p : String} {d : Draft} {doc : StoredDocument}

theorem SameAt.refl (s : Store) (p : String) : s.SameAt s p := ⟨rfl, rfl, rfl⟩

theorem SameAt.trans (h : s.SameAt s' p) (h' : s'.SameAt s'' p) : s.SameAt s'' p where
  frame := by rw [h'.frame, h.frame]
  documents := h'.documents.trans h.documents
  references := h'.references.trans h.references

/-- What a store knows of a path depends on nothing under other paths. -/
theorem SameAt.hash_eq (h : s.SameAt s' p) : s'.hash p = s.hash p := by
  have hrow : s'.tables.row? p = s.tables.row? p := by
    rw [Tables.row?_eq_head?, Tables.row?_eq_head?, h.documents]
  have hframe := h.frame
  unfold Store.hash readable
  rw [hframe]
  dsimp only
  cases s.isOpen
  · rfl
  · simp only [if_true, bind, Except.bind, hrow]

theorem Bears.of_sameAt (h : s.Bears doc) (hsame : s.SameAt s' doc.path) : s'.Bears doc where
  isOpen := by
    rw [hsame.frame]
    exact h.isOpen
  document := hsame.documents.trans h.document
  references := by
    rw [hsame.references]
    exact h.references

theorem Bears.hash_eq (h : s.Bears doc) : s.hash doc.path = .ok (some doc.hash) := by
  rw [Store.hash_eq h.isOpen, Tables.row?_eq_head?, h.document]
  rfl

/-- A store that cannot be asked for a hash cannot be used. -/
theorem family_of_hash {e : StoreError} (h : s.hash p = .error e) : e.family = .unavailable := by
  unfold Store.hash readable at h
  split at h
  · cases h
  · cases h
    rfl

/-- The rows that a write leaves when it succeeds. -/
theorem rows_upsert (h : (s.upsert d).1 = .ok ()) : ∃ doc, d.document? = some doc ∧ s.isOpen ∧
    (∀ r ∈ doc.references, fitsColumn r.line) ∧ ∀ p,
      (s.upsert d).2.tables.documentsAt p =
        (if p = doc.path then [doc.toRow] else s.tables.documentsAt p) ∧
      (s.upsert d).2.tables.owned p =
        if p = doc.path then numbered s.tables.nextId doc.references else s.tables.owned p := by
  have hok : s.upsert d = (.ok (), (s.upsert d).2) := Prod.ext h rfl
  obtain ⟨ho, -, href, doc, hdoc, -, hline, hs⟩ := upsert_ok_iff.mp hok
  have hpath : ∀ r ∈ numbered s.tables.nextId doc.references, r.path = doc.toRow.path :=
    fun r hr => Draft.path_of_mem_references hdoc _ (exists_of_mem_numbered hr).2.2
  refine ⟨doc, hdoc, ho, hline, fun p => ?_⟩
  rw [hs]
  exact ⟨Tables.documentsAt_put_without doc.toRow _, Tables.owned_put_without doc.toRow href hpath⟩

/-- After a write that succeeds there is a table of references. -/
theorem present_upsert (h : (s.upsert d).1 = .ok ()) : (s.upsert d).2.tables.references.isSome := by
  have hok : s.upsert d = (.ok (), (s.upsert d).2) := Prod.ext h rfl
  obtain ⟨-, -, href, doc, -, -, -, hs⟩ := upsert_ok_iff.mp hok
  rw [hs, Tables.isSome_references_put, Tables.isSome_references_without]
  exact href

/-- A write leaves all other paths as they are. -/
theorem sameAt_upsert (s : Store) (h : d.path ≠ some p) : s.SameAt (s.upsert d).2 p := by
  cases hd : (s.upsert d).1 with
  | error e =>
    rw [upsert_error hd]
    exact .refl s p
  | ok u =>
    obtain ⟨doc, hdoc, -, -, hrows⟩ := rows_upsert hd
    have hne : p ≠ doc.path := by
      rintro rfl
      exact h (Draft.document?_eq_some_iff.mp hdoc).1
    obtain ⟨hdocuments, howned⟩ := hrows p
    rw [if_neg hne] at hdocuments howned
    exact ⟨write_frame s (.upsert d), hdocuments, howned⟩

/-- A write that succeeds puts the document of its draft alone under its path. -/
theorem exists_bears_of_upsert (h : (s.upsert d).1 = .ok ()) : ∃ doc, d.document? = some doc ∧
    (∀ r ∈ doc.references, fitsColumn r.line) ∧ (s.upsert d).2.Bears doc := by
  obtain ⟨doc, hdoc, ho, hline, hrows⟩ := rows_upsert h
  obtain ⟨hdocuments, howned⟩ := hrows doc.path
  rw [if_pos rfl] at hdocuments howned
  refine ⟨doc, hdoc, hline, ?_, hdocuments, _, howned⟩
  have hframe := write_frame s (.upsert d)
  rw [write_upsert] at hframe
  rw [hframe]
  exact ho

end Store

end SourceAtlas
