import SourceAtlas.Proofs.Index.Preparation

/-!
# What is stored of a file

All parts of a document that is prepared are of one text: its hash, its language, its references
and its vector. Whether the document can be stored does not depend on the store either, as long as
the store's vectors are as long as the document's.

Results:
* `draft_of_prepare`: a draft that is prepared is of one text, which the file had and the embedder
  answered.
* `documentOf?_eq_ok_iff`: what a text and a vector make, and which of that can be stored.
* `upsert_draftOf`: a store whose vectors are as long says of a draft what its parts say.
-/

namespace SourceAtlas

/-! ## References -/

/-- The references of a text; none where it is not of its dialect. -/
def extracted (key text : String) : List Reference :=
  match extract? key text with
  | .ok rs => rs
  | .error _ => []

/-- A reference as it is stored for a document. -/
def Reference.stored (key : String) (r : Reference) : StoredReference :=
  ⟨key, .text r.name, r.kind, r.line, r.source⟩

@[simp] theorem RefKind.ofString?_toString (k : RefKind) :
    RefKind.ofString? k.toString = some k := by
  cases k <;> decide

theorem Reference.stored?_toDraft (key : String) (r : Reference) :
    r.toDraft.stored? key = some (r.stored key) := by
  refine DraftReference.stored?_eq_some_iff.mpr ⟨rfl, rfl, ?_, rfl, ?_⟩
  · simp [kindOf, Reference.toDraft, Reference.stored, Value.asText?]
  · cases hsource : r.source <;> simp [Reference.toDraft, Reference.stored, hsource, bound,
      Value.bound]

theorem Reference.mapM_stored?_toDraft (key : String) (rs : List Reference) :
    (rs.map Reference.toDraft).mapM (DraftReference.stored? key) =
      some (rs.map (Reference.stored key)) := by
  induction rs with
  | nil => rfl
  | cons r rs ih => simp [stored?_toDraft, ih]

/-! ## Documents -/

/-- The document of a text with a vector, its references in the order of the text. -/
def documentOf (key text : String) (vector : List Single) : StoredDocument :=
  { path := key
    content := text
    vector
    hash := Text.Digest.ofText text
    language := languageOf key
    references := (extracted key text).map (Reference.stored key) }

/-- The document of a text with a vector as an embedder answers it, or why it is not stored. -/
def documentOf? (key text : String) (vector : Nested) : Except StoreError StoredDocument :=
  match storedVector (some vector) with
  | .error (.array .tooLarge) => .error .vectorTooLarge
  | .error f => .error (.rolledBack (some key) (.vector f))
  | .ok xs =>
    if (documentOf key text xs).references.all fun r => fitsColumn r.line then
      .ok (documentOf key text xs)
    else .error (.rolledBack (some key) (.unbindable .tooLarge))

section Documents

variable {key text : String} {vector : Nested} {doc : StoredDocument}

theorem document?_draftOf (key text : String) (vector : Nested) :
    (draftOf key text (extracted key text) vector).document? =
      (storedVector (some vector)).toOption.map (documentOf key text) := by
  cases hv : storedVector (some vector) with
  | error f =>
    simp [Draft.document?, draftOf, hv, Except.toOption]
  | ok xs =>
    simp [Draft.document?, draftOf, hv, Except.toOption, documentOf, -List.mapM_map,
      Reference.mapM_stored?_toDraft]

/-- A text and a vector make the document of both, if the vector can be stored and every line of
    the text fits its column. -/
theorem documentOf?_eq_ok_iff : documentOf? key text vector = .ok doc ↔
    storedVector (some vector) = .ok doc.vector ∧ doc = documentOf key text doc.vector ∧
      ∀ r ∈ doc.references, fitsColumn r.line := by
  unfold documentOf?
  split
  · rename_i hv
    simp [hv]
  · rename_i hv
    simp [hv]
  · rename_i xs hv
    rw [hv]
    split
    · rename_i hall
      constructor
      · intro h
        cases h
        exact ⟨rfl, rfl, List.all_eq_true.mp hall⟩
      · rintro ⟨hxs, hdoc, -⟩
        cases hxs
        rw [← hdoc]
    · rename_i hall
      constructor
      · intro h
        cases h
      · rintro ⟨hxs, hdoc, hfits⟩
        cases hxs
        rw [← hdoc] at hall
        exact absurd (List.all_eq_true.mpr hfits) hall

/-- The parts of a document that depend on its text and its path. -/
theorem parts_of_documentOf? (h : documentOf? key text vector = .ok doc) :
    doc.path = key ∧ doc.content = text ∧ doc.hash = Text.Digest.ofText text := by
  obtain ⟨-, heq, -⟩ := documentOf?_eq_ok_iff.mp h
  exact ⟨congrArg StoredDocument.path heq, congrArg StoredDocument.content heq,
    congrArg StoredDocument.hash heq⟩

theorem documentOf?_of_document? (h : (draftOf key text (extracted key text) vector).document? =
    some doc) (hline : ∀ r ∈ doc.references, fitsColumn r.line) :
    documentOf? key text vector = .ok doc := by
  rw [document?_draftOf] at h
  cases hv : storedVector (some vector) with
  | error f => rw [hv] at h; cases h
  | ok xs =>
    rw [hv] at h
    cases h
    exact documentOf?_eq_ok_iff.mpr ⟨hv, rfl, hline⟩

end Documents

/-! ## Stores whose vectors have one length -/

namespace Catalogue

/-- All vectors have one length. -/
def Uniform (n : Nat) (m : Catalogue) : Prop := ∀ p doc, m p = some doc → doc.vector.length = n

/-- The catalogue with a document, if there is one to enter. -/
def enter {ε : Type} (m : Catalogue) : Except ε StoredDocument → Catalogue
  | .ok doc => Function.update m doc.path (some doc)
  | .error _ => m

end Catalogue

section Uniform

variable {s : Store} {m : Catalogue} {n : Nat}

/-- A text with a vector that cannot be stored is refused whatever the store. -/
theorem upsert_of_vector_refused (s : Store) (key text : String) {vector : Nested} {f : VectorFault}
    (hv : storedVector (some vector) = .error f) : ∃ e, documentOf? key text vector = .error e ∧
      s.upsert (draftOf key text (extracted key text) vector) = (.error e, s) := by
  unfold Store.upsert documentOf?
  dsimp only [draftOf]
  rw [hv]
  cases f with
  | array e => cases e <;> exact ⟨_, rfl, rfl⟩
  | noList | shape | notFinite => exact ⟨_, rfl, rfl⟩

theorem Store.Carries.dimensions_eq (h : s.Carries m) (hm : m.Uniform n) {row : DocumentRow}
    (hrow : row ∈ s.tables.documents) : row.dimensions = n := by
  have hrow? := (Tables.row?_eq_some_iff h.wellFormed).mpr ⟨hrow, rfl⟩
  rw [h.holds.row?] at hrow?
  obtain ⟨doc, hdoc, rfl⟩ := Option.map_eq_some_iff.mp hrow?
  exact hm _ doc hdoc

/-- A store says of a draft what its parts say, if its vectors are as long, and enters the document
    in its catalogue. -/
theorem Store.Carries.upsert_draftOf (h : s.Carries m) (hm : m.Uniform n) (key text : String)
    {vector : Nested} (hlength : ∀ xs, storedVector (some vector) = .ok xs → xs.length = n) :
    (s.upsert (draftOf key text (extracted key text) vector)).1 =
        (documentOf? key text vector).map (fun _ => ()) ∧
      (s.upsert (draftOf key text (extracted key text) vector)).2.Carries
        (m.enter (documentOf? key text vector)) := by
  cases hv : storedVector (some vector) with
  | error f =>
    obtain ⟨e, he, hupsert⟩ := upsert_of_vector_refused s key text hv
    rw [he, hupsert]
    exact ⟨rfl, h⟩
  | ok xs =>
    have hdoc : (draftOf key text (extracted key text) vector).document? =
        some (documentOf key text xs) := by
      rw [document?_draftOf, hv]
      rfl
    have hdim : ∀ row, s.tables.documents.find? (fun r => some r.path != some key) = some row →
        row.dimensions = xs.length := by
      intro row hrow
      rw [hlength xs hv]
      exact h.dimensions_eq hm (List.mem_of_find?_eq_some hrow)
    by_cases hline : ∀ r ∈ (documentOf key text xs).references, fitsColumn r.line
    · have hwritten := Store.upsert_ok_iff.mpr
        ⟨h.isOpen, h.saved, h.wellFormed.present, _, hdoc, hdim, hline, rfl⟩
      have hok := congrArg Prod.fst hwritten
      rw [documentOf?_eq_ok_iff.mpr ⟨hv, rfl, hline⟩]
      exact ⟨hok, h.upsert_ok hok hdoc⟩
    · have hrefused : documentOf? key text vector =
          .error (.rolledBack (some key) (.unbindable .tooLarge)) := by
        unfold documentOf?
        rw [hv]
        exact if_neg fun hall => hline (List.all_eq_true.mp hall)
      have hfailed := Store.upsert_lineTooLarge h.isOpen h.saved h.wellFormed.present hdoc hdim
        (by simpa using hline)
      have hs := Store.upsert_error hfailed
      rw [hrefused]
      exact ⟨hfailed, hs.symm ▸ h⟩

end Uniform

/-! ## Preparations -/

section Preparations

variable {d : Disk} {embed : Embedder} {s : Store} {project path : Path.Absolute} {force : Bool}

/-- Preparing a text asks the embedder about it. -/
theorem draft_prepareText (embed : Embedder) (key text : String) :
    (prepareText embed key text).draft =
      ((embed text).mapError .embedder).map fun vector =>
        some (draftOf key text (extracted key text) vector) := by
  unfold prepareText extracted
  cases embed text <;> cases extract? key text <;> rfl

/-- A draft that is prepared is of the text that the file had, and of the vector that the embedder
    answered that text with. -/
theorem draft_of_prepare {draft : Draft}
    (h : (prepare d embed s project force path).draft = .ok (some draft)) :
    ∃ bytes vector, d.read path.toString = .ok bytes ∧ embed (Text.ofFile bytes) = .ok vector ∧
      draft = draftOf (Path.documentKey project path) (Text.ofFile bytes)
        (extracted (Path.documentKey project path) (Text.ofFile bytes)) vector := by
  rcases prepare_cases d embed s project path force with
    ⟨e, -, hp⟩ | ⟨bytes, hread, ⟨e, -, hp⟩ | ⟨-, -, hp⟩ | ⟨-, hp⟩⟩
  · rw [hp] at h
    cases h
  · rw [hp] at h
    cases h
  · rw [hp] at h
    cases h
  · rw [hp, draft_prepareText] at h
    cases hv : embed (Text.ofFile bytes) with
    | error f => rw [hv] at h; cases h
    | ok vector =>
      rw [hv] at h
      cases h
      exact ⟨bytes, vector, hread, hv, rfl⟩

end Preparations

end SourceAtlas
