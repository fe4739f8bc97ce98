import SourceAtlas.Proofs.Fault.Result
import SourceAtlas.Store.Write

/-!
# What the statements of a write leave behind

One lemma for each statement of a transaction says when it succeeds and which tables it leaves.
Later modules use these and do not look into the statements.

Results:
* `replace_leaves`: a replacement succeeds iff the table of references is there, the first other
  document has vectors of the same length, and every part of the draft can be stored. It leaves
  the tables without the path, with the new rows put behind.
* `remove_leaves`: a removal succeeds iff the table of references is there. It leaves the tables
  without the path.
* `replace_lineTooLarge`: a document with a line that does not fit is refused for that line.
* `replace_dimensions`: so is one whose vector is not as long as that of another document.
-/

namespace SourceAtlas

/-! ## Tables without a path, and with new rows -/

namespace Tables

/-- The rows of references; none while their table is gone. -/
def rows (t : Tables) : List ReferenceRow := t.references.getD []

/-- The tables without the document under a path and without its references. -/
def without (t : Tables) (path : Option String) : Tables :=
  { t with
    documents := t.documents.filter fun d => some d.path != path
    references := t.references.map fun rows => rows.filter fun r => some r.path != path }

/-- The tables with a document and references behind those that they hold. -/
def put (t : Tables) (row : DocumentRow) (news : List ReferenceRow) : Tables where
  documents := t.documents ++ [row]
  references := t.references.map (· ++ news)
  nextId := t.nextId + news.length

theorem references_eq_rows {t : Tables} (h : t.references.isSome) : t.references = some t.rows := by
  obtain ⟨l, hl⟩ := Option.isSome_iff_exists.mp h
  simp [Tables.rows, hl]

theorem without_eq {t : Tables} (h : t.references.isSome) (path : Option String) :
    t.without path = { t with
      documents := t.documents.filter fun d => some d.path != path
      references := some (t.rows.filter fun r => some r.path != path) } := by
  obtain ⟨l, hl⟩ := Option.isSome_iff_exists.mp h
  simp [Tables.rows, without, hl]

@[simp] theorem documents_without (t : Tables) (path : Option String) :
    (t.without path).documents = t.documents.filter fun d => some d.path != path := rfl

@[simp] theorem rows_without (t : Tables) (path : Option String) :
    (t.without path).rows = t.rows.filter fun r => some r.path != path := by
  cases h : t.references <;> simp [Tables.rows, without, h]

@[simp] theorem isSome_references_without (t : Tables) (path : Option String) :
    (t.without path).references.isSome = t.references.isSome := by
  cases h : t.references <;> simp [without, h]

@[simp] theorem documents_put (t : Tables) (row : DocumentRow) (news : List ReferenceRow) :
    (t.put row news).documents = t.documents ++ [row] := rfl

theorem rows_put {t : Tables} (h : t.references.isSome) (row : DocumentRow)
    (news : List ReferenceRow) : (t.put row news).rows = t.rows ++ news := by
  obtain ⟨l, hl⟩ := Option.isSome_iff_exists.mp h
  simp [Tables.rows, put, hl]

@[simp] theorem nextId_put (t : Tables) (row : DocumentRow) (news : List ReferenceRow) :
    (t.put row news).nextId = t.nextId + news.length := rfl

@[simp] theorem isSome_references_put (t : Tables) (row : DocumentRow) (news : List ReferenceRow) :
    (t.put row news).references.isSome = t.references.isSome := by
  cases h : t.references <;> simp [put, h]

end Tables

/-! ## Rows of drafts -/

/-- A reference as it is read when it is stored for a path. The range of its line is left open. -/
def DraftReference.stored? (path : String) (r : DraftReference) : Option StoredReference := do
  let name ← (bound 1 r.name).toOption
  return ⟨path, ← name, ← (kindOf r.kind).toOption, ← (lineOf r.line).toOption,
    ← (bound 5 r.source).toOption⟩

theorem DraftReference.stored?_eq_some_iff {path : String} {r : DraftReference}
    {s : StoredReference} : r.stored? path = some s ↔
      s.path = path ∧ bound 1 r.name = .ok (some s.name) ∧ kindOf r.kind = .ok s.kind ∧
        lineOf r.line = .ok s.line ∧ bound 5 r.source = .ok s.source := by
  unfold stored?
  simp only [bind, Option.bind_eq_some_iff, toOption_eq_some_iff, pure, Option.some.injEq]
  constructor
  · rintro ⟨_, hn, name, rfl, kind, hk, line, hl, source, hs, rfl⟩
    exact ⟨rfl, hn, hk, hl, hs⟩
  · rintro ⟨rfl, hn, hk, hl, hs⟩
    exact ⟨_, hn, _, rfl, _, hk, _, hl, _, hs, rfl⟩

/-- The row of a stored reference, with its number. -/
def StoredReference.toRow (id : Nat) (r : StoredReference) : ReferenceRow :=
  ⟨id, r.path, r.name, r.kind, r.line, r.source⟩

@[simp] theorem StoredReference.view_toRow (id : Nat) (r : StoredReference) :
    (r.toRow id).view = r := rfl

theorem present_eq_ok_iff {c : Column} {cell : Option Cell} {a : Cell} :
    present c cell = .ok a ↔ cell = some a := by
  cases cell <;> simp [present]

theorem boundInt_eq_ok_iff {n m : Int} : boundInt n = .ok m ↔ fitsColumn n ∧ m = n := by
  unfold boundInt
  split <;> simp_all [@eq_comm _ m]

/-- A reference can be stored iff it has a name, a kind, a line that fits its column, and a source
    that a column takes. -/
theorem rowOf_eq_ok_iff {path : String} {id : Nat} {r : DraftReference} {row : ReferenceRow} :
    rowOf path id r = .ok row ↔
      ∃ s, r.stored? path = some s ∧ fitsColumn s.line ∧ row = s.toRow id := by
  unfold rowOf
  simp only [bind_eq_ok_iff, mapError_eq_ok_iff, present_eq_ok_iff, boundInt_eq_ok_iff,
    DraftReference.stored?_eq_some_iff]
  constructor
  · rintro ⟨line, hl, kind, hk, _, hn, _, ⟨hf, hline⟩, source, hs, name, rfl, h⟩
    cases hline
    cases h
    exact ⟨⟨path, name, kind, line, source⟩, ⟨rfl, hn, hk, hl, hs⟩, hf, rfl⟩
  · rintro ⟨s, ⟨rfl, hn, hk, hl, hs⟩, hf, rfl⟩
    exact ⟨_, hl, _, hk, _, hn, _, ⟨hf, rfl⟩, _, hs, _, rfl, rfl⟩

/-- A list is bound to no column. -/
example : rowOf "a.js" 1 ⟨some (.list []), .text "usage", .int 1, none⟩ =
    .error (.unbindable (.unsupported 1 "list")) := rfl

/-- The document that a draft describes, its references in the order given. -/
def Draft.document? (d : Draft) : Option StoredDocument := do
  let path ← d.path
  return {
    path
    content := ← d.content
    vector := ← (storedVector d.vector).toOption
    hash := ← d.hash
    language := ← d.language
    references := ← d.references.mapM (DraftReference.stored? path) }

/-- The row of a document. -/
def StoredDocument.toRow (d : StoredDocument) : DocumentRow :=
  ⟨d.path, d.content, encodeVector d.vector, d.vector.length, d.hash, d.language⟩

/-- A draft describes a document iff every part of it does. -/
theorem Draft.document?_eq_some_iff {d : Draft} {doc : StoredDocument} :
    d.document? = some doc ↔ d.path = some doc.path ∧ d.content = some doc.content ∧
      storedVector d.vector = .ok doc.vector ∧ d.hash = some doc.hash ∧
      d.language = some doc.language ∧
      d.references.mapM (DraftReference.stored? doc.path) = some doc.references := by
  unfold Draft.document?
  constructor
  · intro h
    obtain ⟨path, hp, h⟩ := Option.bind_eq_some_iff.mp h
    obtain ⟨content, hc, h⟩ := Option.bind_eq_some_iff.mp h
    obtain ⟨vector, hv, h⟩ := Option.bind_eq_some_iff.mp h
    obtain ⟨hash, hh, h⟩ := Option.bind_eq_some_iff.mp h
    obtain ⟨language, hl, h⟩ := Option.bind_eq_some_iff.mp h
    obtain ⟨references, hr, h⟩ := Option.bind_eq_some_iff.mp h
    cases h
    refine ⟨hp, hc, ?_, hh, hl, hr⟩
    cases hs : storedVector d.vector <;> simp_all [Except.toOption]
  · rintro ⟨hp, hc, hv, hh, hl, hr⟩
    simp [hp, hc, hv, hh, hl, hr, Except.toOption]

/-- The rows of references, numbered one after another. -/
def numbered (id : Nat) : List StoredReference → List ReferenceRow
  | [] => []
  | r :: rs => r.toRow id :: numbered (id + 1) rs

@[simp] theorem length_numbered (id : Nat) (rs : List StoredReference) :
    (numbered id rs).length = rs.length := by
  induction rs generalizing id with
  | nil => rfl
  | cons r rs ih => simp [numbered, ih]

@[simp] theorem map_view_numbered (id : Nat) (rs : List StoredReference) :
    (numbered id rs).map ReferenceRow.view = rs := by
  induction rs generalizing id with
  | nil => rfl
  | cons r rs ih => simp [numbered, ih]

/-! ## Statements in sequence -/

namespace Statement

variable {α β : Type}

@[simp] theorem on_pure (a : α) (t : Tables) : on (pure a) t = (.ok a, t) := rfl

@[simp] theorem on_get (t : Tables) : on get t = (.ok t, t) := rfl

@[simp] theorem on_set (t u : Tables) : on (set u) t = (.ok (), u) := rfl

@[simp] theorem on_modify (f : Tables → Tables) (t : Tables) :
    on (modify f) t = (.ok (), f t) := rfl

@[simp] theorem on_throw (f : WriteFault) (t : Tables) :
    on (throw f : Statement α) t = (.error f, t) := rfl

/-- A statement runs on the tables that the one before it leaves, unless that one fails. -/
theorem on_bind (x : Statement α) (f : α → Statement β) (t : Tables) :
    on (x >>= f) t = match x.on t with
      | (.ok a, u) => (f a).on u
      | (.error e, u) => (.error e, u) := by
  unfold on ExceptT.run StateT.run Id.run
  simp only [bind, ExceptT.bind, ExceptT.mk, StateT.bind, ExceptT.bindCont]
  cases x t with
  | mk result u => cases result <;> rfl

@[simp] theorem on_map (f : α → β) (x : Statement α) (t : Tables) :
    on (f <$> x) t = match x.on t with
      | (.ok a, u) => (.ok (f a), u)
      | (.error e, u) => (.error e, u) := by
  rw [map_eq_pure_bind, on_bind]
  rfl

/-- A statement succeeds on tables with an answer and leaves tables behind. -/
def Leaves (work : Statement α) (t : Tables) (a : α) (u : Tables) : Prop := work.on t = (.ok a, u)

theorem leaves_bind {x : Statement α} {f : α → Statement β} {t u : Tables} {b : β} :
    (x >>= f).Leaves t b u ↔ ∃ a v, x.Leaves t a v ∧ (f a).Leaves v b u := by
  unfold Leaves
  rw [on_bind]
  cases x.on t with
  | mk result v => cases result <;> simp

/-! ## Each statement -/

theorem dropReferences_leaves {path : Option String} {t u : Tables} {a : Unit} :
    (dropReferences path).Leaves t a u ↔ t.references.isSome ∧
      u = { t with references := some (t.rows.filter fun r => some r.path != path) } := by
  unfold Leaves dropReferences
  rw [on_bind, on_get]
  cases h : t.references <;> simp [h, Tables.rows, @eq_comm _ u]

theorem dropDocument_leaves {path : Option String} {t u : Tables} {a : Bool} :
    (dropDocument path).Leaves t a u ↔ a = t.documents.any (fun r => some r.path == path) ∧
      u = { t with documents := t.documents.filter fun r => some r.path != path } := by
  unfold Leaves dropDocument
  rw [on_bind, on_get]
  simp only [on_bind, on_set, on_pure, Prod.mk.injEq, Except.ok.injEq]
  rw [@eq_comm _ a, @eq_comm _ u]

theorem checkDimensions_leaves {path : Option String} {n : Nat} {t u : Tables} {a : Unit} :
    (checkDimensions path n).Leaves t a u ↔ u = t ∧
      ∀ row, t.documents.find? (fun r => some r.path != path) = some row → row.dimensions = n := by
  unfold Leaves checkDimensions
  rw [on_bind, on_get]
  cases h : t.documents.find? fun r => some r.path != path with
  | none => simp [h, @eq_comm _ u]
  | some row => by_cases hd : row.dimensions = n <;> simp [h, hd, @eq_comm _ u]

theorem required_leaves {c : Column} {x : Option String} {t u : Tables} {a : String} :
    (required c x).Leaves t a u ↔ x = some a ∧ u = t := by
  unfold Leaves required
  cases x <;> simp [@eq_comm _ u]

theorem addReference_leaves {path : String} {r : DraftReference} {t u : Tables} {a : Unit} :
    (addReference path r).Leaves t a u ↔ t.references.isSome ∧
      ∃ row, rowOf path t.nextId r = .ok row ∧
        u = { t with references := some (t.rows ++ [row]), nextId := t.nextId + 1 } := by
  unfold Leaves addReference
  rw [on_bind, on_get]
  cases h : t.references with
  | none => simp [h]
  | some rows => cases hr : rowOf path t.nextId r <;> simp [h, hr, Tables.rows, @eq_comm _ u]

/-- References are added iff each can be stored; their rows are numbered one after another. -/
theorem addReferences_leaves {path : String} {rs : List DraftReference} {t u : Tables} {a : Unit}
    (h : t.references.isSome) :
    (addReferences path rs).Leaves t a u ↔
      ∃ news, rs.mapM (DraftReference.stored? path) = some news ∧
        (∀ s ∈ news, fitsColumn s.line) ∧
        u = { t with
          references := some (t.rows ++ numbered t.nextId news)
          nextId := t.nextId + news.length } := by
  induction rs generalizing t with
  | nil =>
    unfold addReferences Leaves
    simp [numbered, ← Tables.references_eq_rows h, @eq_comm _ u]
  | cons r rs ih =>
    rw [addReferences, leaves_bind]
    simp only [addReference_leaves, rowOf_eq_ok_iff]
    constructor
    · rintro ⟨_, v, ⟨-, row, ⟨s, hs, hf, rfl⟩, rfl⟩, hu⟩
      obtain ⟨news, hn, hall, rfl⟩ := (ih rfl).mp hu
      refine ⟨s :: news, by simp [hs, hn], by simpa using ⟨hf, hall⟩, ?_⟩
      simp [Tables.rows, numbered, Nat.add_assoc, Nat.add_comm 1]
    · rintro ⟨news, hn, hall, rfl⟩
      rw [List.mapM_cons] at hn
      obtain ⟨s, hs, hn⟩ := Option.bind_eq_some_iff.mp hn
      obtain ⟨rest, hr, hn⟩ := Option.bind_eq_some_iff.mp hn
      cases hn
      rw [List.forall_mem_cons] at hall
      refine ⟨(), _, ⟨h, _, ⟨s, hs, hall.1, rfl⟩, rfl⟩, (ih rfl).mpr ⟨rest, hr, hall.2, ?_⟩⟩
      simp [Tables.rows, numbered, Nat.add_assoc, Nat.add_comm 1]

theorem addDocument_leaves {d : Draft} {v : List Single} {t u : Tables} {a : String} :
    (addDocument d v).Leaves t a u ↔ ∃ content hash language,
      d.path = some a ∧ d.content = some content ∧ d.hash = some hash ∧
      d.language = some language ∧
      u = { t with
        documents := t.documents ++ [⟨a, content, encodeVector v, v.length, hash, language⟩] } := by
  unfold addDocument
  simp only [leaves_bind, required_leaves]
  constructor
  · rintro ⟨path, _, ⟨hp, rfl⟩, content, _, ⟨hc, rfl⟩, hash, _, ⟨hh, rfl⟩, language, _, ⟨hl, rfl⟩,
      _, _, hm, hu⟩
    cases hm
    cases hu
    exact ⟨content, hash, language, hp, hc, hh, hl, rfl⟩
  · rintro ⟨content, hash, language, hp, hc, hh, hl, rfl⟩
    exact ⟨a, t, ⟨hp, rfl⟩, content, t, ⟨hc, rfl⟩, hash, t, ⟨hh, rfl⟩, language, t, ⟨hl, rfl⟩,
      (), _, rfl, rfl⟩

/-! ## Whole writes -/

/-- A replacement succeeds iff the references can be dropped, the vector has the length of those of
    the other documents, and the draft describes a document whose lines fit their column. -/
theorem replace_leaves {d : Draft} {v : List Single} {t u : Tables} {a : Unit}
    (hv : storedVector d.vector = .ok v) :
    (replace d v).Leaves t a u ↔ t.references.isSome ∧
      (∀ row, t.documents.find? (fun r => some r.path != d.path) = some row →
        row.dimensions = v.length) ∧
      ∃ doc, d.document? = some doc ∧ (∀ s ∈ doc.references, fitsColumn s.line) ∧
        u = (t.without d.path).put doc.toRow (numbered t.nextId doc.references) := by
  unfold replace
  simp only [leaves_bind, checkDimensions_leaves, dropReferences_leaves, dropDocument_leaves,
    addDocument_leaves]
  constructor
  · rintro ⟨_, _, ⟨rfl, hdim⟩, _, _, ⟨href, rfl⟩, _, _, ⟨-, rfl⟩, path, _,
      ⟨content, hash, language, hp, hc, hh, hl, rfl⟩, hu⟩
    obtain ⟨refs, hr, hall, rfl⟩ := (addReferences_leaves rfl).mp hu
    refine ⟨href, hdim, ⟨path, content, v, hash, language, refs⟩, ?_, hall, ?_⟩
    · exact Draft.document?_eq_some_iff.mpr ⟨hp, hc, hv, hh, hl, hr⟩
    · simp [Tables.put, Tables.without_eq href, Tables.rows, StoredDocument.toRow]
  · rintro ⟨href, hdim, doc, hdoc, hall, rfl⟩
    obtain ⟨hp, hc, hv', hh, hl, hr⟩ := Draft.document?_eq_some_iff.mp hdoc
    cases hv.symm.trans hv'
    refine ⟨(), t, ⟨rfl, hdim⟩, (), _, ⟨href, rfl⟩, _, _, ⟨rfl, rfl⟩, doc.path, _,
      ⟨doc.content, doc.hash, doc.language, hp, hc, hh, hl, rfl⟩, ?_⟩
    refine (addReferences_leaves rfl).mpr ⟨doc.references, hr, hall, ?_⟩
    simp [Tables.put, Tables.without_eq href, Tables.rows, StoredDocument.toRow, hp]

/-- A removal succeeds iff the references can be dropped, and tells whether there was a document. -/
theorem remove_leaves {path : Option String} {t u : Tables} {a : Bool} :
    (remove path).Leaves t a u ↔ t.references.isSome ∧
      a = t.documents.any (fun r => some r.path == path) ∧ u = t.without path := by
  unfold remove
  simp only [leaves_bind, dropReferences_leaves, dropDocument_leaves]
  constructor
  · rintro ⟨_, _, ⟨href, rfl⟩, rfl, rfl⟩
    exact ⟨href, rfl, (Tables.without_eq href path).symm⟩
  · rintro ⟨href, rfl, rfl⟩
    exact ⟨(), _, ⟨href, rfl⟩, rfl, Tables.without_eq href path⟩

/-! ## Lines that do not fit -/

/-- A statement fails on tables with a fault, whatever it leaves behind. -/
def Fails (work : Statement α) (t : Tables) (f : WriteFault) : Prop := (work.on t).1 = .error f

theorem Fails.bind {x : Statement α} {f : α → Statement β} {t : Tables} {e : WriteFault}
    (h : x.Fails t e) : (x >>= f).Fails t e := by
  unfold Fails at h ⊢
  rw [on_bind]
  cases hx : x.on t with
  | mk result u =>
    rw [hx] at h
    cases h
    rfl

theorem Leaves.bind_fails {x : Statement α} {f : α → Statement β} {t u : Tables} {a : α}
    {e : WriteFault} (hx : x.Leaves t a u) (h : (f a).Fails u e) : (x >>= f).Fails t e := by
  unfold Leaves at hx
  unfold Fails at h ⊢
  rw [on_bind, hx]
  exact h

theorem rowOf_eq_tooLarge {path : String} {r : DraftReference} {s : StoredReference}
    (h : r.stored? path = some s) (hline : ¬ fitsColumn s.line) (id : Nat) :
    rowOf path id r = .error (.unbindable .tooLarge) := by
  obtain ⟨-, hn, hk, hl, -⟩ := DraftReference.stored?_eq_some_iff.mp h
  have hbound : boundInt s.line = .error .tooLarge := by
    rw [boundInt, if_neg hline]
  unfold rowOf
  rw [hl, hk, hn]
  simp only [Except.mapError, ok_bind, hbound]
  rfl

/-- Of references that can all be read, the first whose line does not fit its column ends their
    being added. -/
theorem addReferences_lineTooLarge {path : String} {rs : List DraftReference}
    {news : List StoredReference} {t : Tables} (ht : t.references.isSome)
    (hn : rs.mapM (DraftReference.stored? path) = some news)
    (hline : ∃ s ∈ news, ¬ fitsColumn s.line) :
    (addReferences path rs).Fails t (.unbindable .tooLarge) := by
  induction rs generalizing t news with
  | nil =>
    cases hn
    obtain ⟨s, hs, -⟩ := hline
    cases hs
  | cons r rs ih =>
    rw [List.mapM_cons] at hn
    obtain ⟨s, hs, hn⟩ := Option.bind_eq_some_iff.mp hn
    obtain ⟨rest, hr, hn⟩ := Option.bind_eq_some_iff.mp hn
    cases hn
    rw [addReferences]
    by_cases hf : fitsColumn s.line
    · have hrow : rowOf path t.nextId r = .ok (s.toRow t.nextId) :=
        rowOf_eq_ok_iff.mpr ⟨s, hs, hf, rfl⟩
      have hadded := addReference_leaves (a := ()).mpr ⟨ht, _, hrow, rfl⟩
      refine hadded.bind_fails (ih rfl hr ?_)
      simpa [hf] using hline
    · have hrow := rowOf_eq_tooLarge hs hf t.nextId
      obtain ⟨rows, hrows⟩ := Option.isSome_iff_exists.mp ht
      refine Fails.bind ?_
      unfold addReference Fails
      rw [on_bind, on_get]
      simp [hrows, hrow]

/-- A document that has nothing wrong with it but a line is refused for that line. -/
theorem replace_lineTooLarge {d : Draft} {doc : StoredDocument} {t : Tables}
    (ht : t.references.isSome) (hdoc : d.document? = some doc)
    (hdim : ∀ row, t.documents.find? (fun r => some r.path != d.path) = some row →
      row.dimensions = doc.vector.length)
    (hline : ∃ s ∈ doc.references, ¬ fitsColumn s.line) :
    (replace d doc.vector).Fails t (.unbindable .tooLarge) := by
  obtain ⟨hp, hc, -, hh, hl, hr⟩ := Draft.document?_eq_some_iff.mp hdoc
  have hchecked := checkDimensions_leaves (a := ()).mpr ⟨rfl, hdim⟩
  refine hchecked.bind_fails ((dropReferences_leaves (a := ()).mpr ⟨ht, rfl⟩).bind_fails ?_)
  refine (dropDocument_leaves.mpr ⟨rfl, rfl⟩).bind_fails ?_
  refine (addDocument_leaves.mpr ⟨_, _, _, hp, hc, hh, hl, rfl⟩).bind_fails ?_
  exact addReferences_lineTooLarge rfl hr hline

/-! ## Vectors of another length -/

/-- Where the first document under another path has vectors of another length, a replacement is
    refused before anything is removed. -/
theorem replace_dimensions {d : Draft} {v : List Single} {t : Tables} {row : DocumentRow}
    (hrow : t.documents.find? (fun r => some r.path != d.path) = some row)
    (hne : row.dimensions ≠ v.length) :
    (replace d v).Fails t (.dimensions row.dimensions v.length) := by
  refine Fails.bind ?_
  unfold checkDimensions Fails
  rw [on_bind, on_get]
  simp [hrow, hne]

/-! ## Faults -/

/-- A statement fails only with faults of its own: never with one of the vector, which is read
    before a transaction, nor with one of its beginning. -/
def FailsInside (work : Statement α) : Prop :=
  ∀ t f, (work.on t).1 = .error f → f ≠ .cannotBegin ∧ ∀ v, f ≠ .vector v

theorem FailsInside.bind {x : Statement α} {f : α → Statement β} (hx : x.FailsInside)
    (hf : ∀ a, (f a).FailsInside) : (x >>= f).FailsInside := by
  intro t e h
  rw [on_bind] at h
  cases ho : x.on t with
  | mk result u =>
    rw [ho] at h
    cases result with
    | ok a => exact hf a u e h
    | error g =>
      cases h
      exact hx t e (by rw [ho])

theorem failsInside_pure (a : α) : FailsInside (pure a) := by
  intro t f h
  simp at h

theorem kindOf_failsInside {v : Value} {f : WriteFault} (h : kindOf v = .error f) :
    f ≠ .cannotBegin ∧ ∀ v, f ≠ .vector v := by
  unfold kindOf at h
  split at h
  · cases h
  · cases h
    split <;> simp

theorem rowOf_failsInside {path : String} {id : Nat} {r : DraftReference} {f : WriteFault}
    (h : rowOf path id r = .error f) : f ≠ .cannotBegin ∧ ∀ v, f ≠ .vector v := by
  unfold rowOf at h
  simp only [bind_eq_error_iff, mapError_eq_error_iff] at h
  obtain ⟨_, -, rfl⟩ | ⟨line, -, hkind | ⟨kind, -, ⟨_, -, rfl⟩ | ⟨name, -, ⟨_, -, rfl⟩ |
    ⟨line, -, ⟨_, -, rfl⟩ | ⟨source, -, hname | ⟨_, -, h⟩⟩⟩⟩⟩⟩ := h
  · simp
  · exact kindOf_failsInside hkind
  · simp
  · simp
  · simp
  · cases name with
    | none => cases hname; simp
    | some name => cases hname
  · cases h

theorem dropReferences_failsInside (path : Option String) : (dropReferences path).FailsInside := by
  intro t f h
  unfold dropReferences at h
  rw [on_bind, on_get] at h
  cases hr : t.references with
  | none => simp only [hr, on_throw] at h; cases h; simp
  | some rows => simp [hr] at h

theorem dropDocument_failsInside (path : Option String) : (dropDocument path).FailsInside := by
  intro t f h
  simp [dropDocument, on_bind] at h

theorem checkDimensions_failsInside (path : Option String) (n : Nat) :
    (checkDimensions path n).FailsInside := by
  intro t f h
  unfold checkDimensions at h
  rw [on_bind, on_get] at h
  cases hr : t.documents.find? fun r => some r.path != path with
  | none => simp [hr] at h
  | some row =>
    by_cases hd : row.dimensions = n
    · simp [hr, hd] at h
    · simp only [hr, bne_iff_ne, ne_eq, hd, not_false_eq_true, if_true, on_throw] at h
      cases h
      simp

theorem required_failsInside (c : Column) (x : Option String) : (required c x).FailsInside := by
  intro t f h
  cases x with
  | none => simp only [required, on_throw] at h; cases h; simp
  | some s => simp [required] at h

theorem addReferences_failsInside (path : String) (rs : List DraftReference) :
    (addReferences path rs).FailsInside := by
  induction rs with
  | nil => exact failsInside_pure ()
  | cons r rs ih =>
    refine FailsInside.bind ?_ fun _ => ih
    intro t f h
    unfold addReference at h
    rw [on_bind, on_get] at h
    cases hr : t.references with
    | none => simp only [hr, on_throw] at h; cases h; simp
    | some rows =>
      cases ho : rowOf path t.nextId r with
      | error g => simp only [hr, ho, on_throw] at h; cases h; exact rowOf_failsInside ho
      | ok row => simp [hr, ho] at h

theorem replace_failsInside (d : Draft) (v : List Single) : (replace d v).FailsInside := by
  refine (checkDimensions_failsInside _ _).bind fun _ => ?_
  refine (dropReferences_failsInside _).bind fun _ => ?_
  refine (dropDocument_failsInside _).bind fun _ => ?_
  refine FailsInside.bind ?_ fun path => addReferences_failsInside path _
  refine (required_failsInside _ _).bind fun _ => ?_
  refine (required_failsInside _ _).bind fun _ => ?_
  refine (required_failsInside _ _).bind fun _ => ?_
  refine (required_failsInside _ _).bind fun _ => ?_
  intro t f h
  simp at h

theorem remove_failsInside (path : Option String) : (remove path).FailsInside :=
  (dropReferences_failsInside path).bind fun _ => dropDocument_failsInside path

end Statement

end SourceAtlas
