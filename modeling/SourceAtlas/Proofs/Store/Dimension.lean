import SourceAtlas.Proofs.Store.Views

/-!
# The length of the vectors in a store

All documents of a store have vectors of one length. A write asks one other document for it, and
what that one says holds of all. So a length stays for as long as there is another document to ask.

Results:
* `upsert_of_locked`: a document whose vector is not as long as that of another one is refused.
* `upsert_of_free`: any other document that can be stored is, and its vector sets the length.
* `sole_of_dimensions_ne`: a write that changes the length replaces the only document.
* `exists_delete_of_dimensions_ne`: two documents keep their length until deletes leave at most one.
* `dimension_lock`: all of it, for a store that was empty and has been written to.
-/

namespace SourceAtlas

/-! ## Lengths in tables -/

namespace Tables

variable {t : Tables} {d : DocumentRow} {n : Nat}

/-- Every document speaks for the length of all vectors. -/
theorem dimensions_of_mem (h : t.WellFormed) (hd : d ∈ t.documents) :
    t.dimensions = some d.dimensions := by
  unfold dimensions
  cases ht : t.documents with
  | nil => rw [ht] at hd; cases hd
  | cons e es =>
    rw [List.head?_cons, Option.map_some,
      h.dimensions e (ht ▸ List.mem_cons_self) d hd]

theorem exists_of_dimensions (h : t.dimensions = some n) : ∃ d ∈ t.documents, d.dimensions = n := by
  unfold dimensions at h
  obtain ⟨d, hd, hn⟩ := Option.map_eq_some_iff.mp h
  exact ⟨d, List.mem_of_head? hd, hn⟩

/-- Of documents under one path there is at most one. -/
theorem length_le_one (path : String) {ds : List DocumentRow}
    (hdistinct : (ds.map DocumentRow.path).Nodup) (hpath : ∀ d ∈ ds, d.path = path) :
    ds.length ≤ 1 := by
  have hsame : ds.map DocumentRow.path = List.replicate ds.length path := by
    rw [List.eq_replicate_iff, List.length_map]
    refine ⟨rfl, fun p hp => ?_⟩
    obtain ⟨d, hd, rfl⟩ := List.mem_map.mp hp
    exact hpath d hd
  rw [hsame, List.nodup_replicate] at hdistinct
  exact hdistinct

/-- Taking a path away takes at most one document away. -/
theorem length_without (h : t.WellFormed) (path : String) :
    t.documents.length ≤ (t.without path).documents.length + 1 := by
  have hsplit := List.length_eq_length_filter_add (l := t.documents)
    fun d => some d.path != some path
  have hone : (t.documents.filter fun d => !(some d.path != some path)).length ≤ 1 := by
    refine length_le_one path (h.distinct.sublist (List.filter_sublist.map _)) fun d hd => ?_
    simpa using (List.mem_filter.mp hd).2
  rw [documents_without]
  omega

end Tables

/-! ## Single writes -/

namespace Store

/-- The documents under other paths have vectors of a length `expected` that is not `actual`. -/
structure Locked (s : Store) (path : String) (expected actual : Nat) : Prop where
  other : ∃ q doc, q ≠ path ∧ s.get q = .ok (some doc)
  length : s.dimensions = .ok (some expected)
  differs : expected ≠ actual

variable {s : Store} {m : Catalogue}

theorem Carries.dimensions_ok (h : s.Carries m) {n : Nat} :
    s.dimensions = .ok (some n) ↔ s.tables.dimensions = some n := by
  rw [Store.dimensions_eq h.isOpen, Except.ok.injEq]

theorem Carries.count_ok (h : s.Carries m) {k : Nat} :
    s.count = .ok k ↔ s.tables.documents.length = k := by
  rw [count_eq h.isOpen, Except.ok.injEq]

/-- A document can be read under a path iff there is a row of it. -/
theorem Carries.exists_get_iff (h : s.Carries m) {path : String} :
    (∃ doc, s.get path = .ok (some doc)) ↔ ∃ d ∈ s.tables.documents, d.path = path := by
  rw [get_eq h.isOpen h.wellFormed.present]
  simp only [Except.ok.injEq, Option.map_eq_some_iff, ← Tables.row?_eq_some_iff h.wellFormed]
  constructor
  · rintro ⟨_, d, hd, -⟩
    exact ⟨d, hd⟩
  · rintro ⟨d, hd⟩
    exact ⟨_, d, hd, rfl⟩

section Upsert

variable {d : Draft} {doc : StoredDocument}

/-- The one other document that is asked has the length of all of them. -/
theorem Carries.locked_of_find? (h : s.Carries m) {path : String} {n : Nat} {row : DocumentRow}
    (hrow : s.tables.documents.find? (fun r => some r.path != some path) = some row)
    (hne : row.dimensions ≠ n) : s.Locked path row.dimensions n where
  other := by
    have hmem := List.mem_of_find?_eq_some hrow
    obtain ⟨doc, hdoc⟩ := h.exists_get_iff.mpr ⟨row, hmem, rfl⟩
    exact ⟨row.path, doc, by simpa using List.find?_some hrow, hdoc⟩
  length := h.dimensions_ok.mpr
    (Tables.dimensions_of_mem h.wellFormed (List.mem_of_find?_eq_some hrow))
  differs := hne

/-- A document whose vector is not as long as that of another one is refused. -/
theorem Carries.upsert_of_locked (h : s.Carries m) (hdoc : d.document? = some doc) {e : Nat}
    (hlocked : s.Locked doc.path e doc.vector.length) :
    s.upsert d =
      (.error (.rolledBack (some doc.path) (.dimensions e doc.vector.length)), s) := by
  obtain ⟨hp, -, hv, -⟩ := Draft.document?_eq_some_iff.mp hdoc
  obtain ⟨⟨q, x, hne, hx⟩, hexpected, hdiffers⟩ := hlocked
  obtain ⟨other, hother, hq⟩ := h.exists_get_iff.mp ⟨x, hx⟩
  have hfound : (s.tables.documents.find? fun r => some r.path != d.path).isSome :=
    List.find?_isSome.mpr ⟨other, hother, by simpa [hp, hq] using hne⟩
  obtain ⟨row, hrow⟩ := Option.isSome_iff_exists.mp hfound
  have hlength : row.dimensions = e := by
    have hall := Tables.dimensions_of_mem h.wellFormed (List.mem_of_find?_eq_some hrow)
    rw [h.dimensions_ok.mp hexpected] at hall
    exact (Option.some.inj hall).symm
  have hfails := Statement.replace_dimensions hrow (v := doc.vector) (by rwa [hlength])
  rw [upsert_of_vector hv, transaction_fails h.isOpen h.saved hfails, hp, hlength]

/-- A document that can be stored, and whose vector is as long as all others, is stored. -/
theorem Carries.upsert_of_free (h : s.Carries m) (hdoc : d.document? = some doc)
    (hline : ∀ r ∈ doc.references, fitsColumn r.line)
    (hfree : ¬ ∃ e, s.Locked doc.path e doc.vector.length) :
    (s.upsert d).1 = .ok () ∧ (s.upsert d).2.dimensions = .ok (some doc.vector.length) := by
  have hdim : ∀ row, s.tables.documents.find? (fun r => some r.path != some doc.path) = some row →
      row.dimensions = doc.vector.length := by
    intro row hrow
    by_contra hne
    exact hfree ⟨_, h.locked_of_find? hrow hne⟩
  have hok := upsert_ok_iff.mpr
    ⟨h.isOpen, h.saved, h.wellFormed.present, doc, hdoc, hdim, hline, rfl⟩
  have hafter := h.upsert_ok (congrArg Prod.fst hok) hdoc
  refine ⟨congrArg Prod.fst hok, hafter.dimensions_ok.mpr ?_⟩
  have hmem : doc.toRow ∈ (s.upsert d).2.tables.documents := by
    rw [hok]
    simp
  exact Tables.dimensions_of_mem hafter.wellFormed hmem

end Upsert

/-! ## What changes a length -/

/-- All documents lie under the path of one that changes the length. -/
theorem Carries.path_of_dimensions_ne (h : s.Carries m) {doc : StoredDocument} {a : Nat}
    (ha : s.tables.dimensions = some a) (hne : a ≠ doc.vector.length)
    (hdim : ∀ row, s.tables.documents.find? (fun r => some r.path != some doc.path) = some row →
      row.dimensions = doc.vector.length) :
    ∀ row ∈ s.tables.documents, row.path = doc.path := by
  intro row hrow
  by_contra hother
  have hleft : row ∈ (s.tables.without doc.path).documents :=
    List.mem_filter.mpr ⟨hrow, by simpa using hother⟩
  have hlength := Tables.dimensions_eq h.wellFormed hdim hleft
  rw [Tables.dimensions_of_mem h.wellFormed hrow] at ha
  exact hne ((Option.some.inj ha).symm.trans hlength)

/-- A write that changes the length replaces the only document. -/
theorem Carries.sole_of_dimensions_ne (h : s.Carries m) {w : Write} {a b : Nat}
    (ha : s.dimensions = .ok (some a)) (hb : (s.write w).2.dimensions = .ok (some b))
    (hne : a ≠ b) :
    (s.write w).1 = .ok () ∧ s.count = .ok 1 ∧
      ∃ d doc old, w = .upsert d ∧ d.document? = some doc ∧ s.get doc.path = .ok (some old) := by
  have hafter := h.write w
  rw [h.dimensions_ok] at ha
  rw [hafter.dimensions_ok] at hb
  rcases write_cases s w with ⟨e, hw⟩ | ⟨d, doc, rfl, hdoc, hdim, -, hw⟩ | ⟨path, rfl, hw⟩
  · rw [hw, ha] at hb
    exact absurd (Option.some.inj hb) hne
  · have hwritten : doc.toRow ∈ (s.write (.upsert d)).2.tables.documents := by
      rw [hw]
      simp
    rw [Tables.dimensions_of_mem hafter.wellFormed hwritten] at hb
    have hlength : doc.vector.length = b := Option.some.inj hb
    have hpath := h.path_of_dimensions_ne ha (by rwa [hlength]) hdim
    obtain ⟨row, hrow, -⟩ := Tables.exists_of_dimensions ha
    have hone := Tables.length_le_one _ h.wellFormed.distinct hpath
    have hsome := List.length_pos_of_mem hrow
    obtain ⟨old, hold⟩ := h.exists_get_iff.mpr ⟨row, hrow, hpath row hrow⟩
    exact ⟨by rw [hw], h.count_ok.mpr (by omega), d, doc, old, rfl, hdoc, hold⟩
  · -- What a delete leaves was there before.
    obtain ⟨row, hrow, hlength⟩ := Tables.exists_of_dimensions hb
    rw [hw] at hrow
    rw [Tables.dimensions_of_mem h.wellFormed (List.mem_of_mem_filter hrow)] at ha
    exact absurd ((Option.some.inj ha).symm.trans hlength) hne

/-- A write that leaves at most one of several documents is a delete. -/
theorem Carries.delete_of_count (h : s.Carries m) {w : Write}
    (hbefore : 2 ≤ s.tables.documents.length)
    (hafter : (s.write w).2.tables.documents.length ≤ 1) : ∃ path, w = .delete path := by
  rcases write_cases s w with ⟨e, hw⟩ | ⟨d, doc, rfl, -, -, -, hw⟩ | ⟨path, rfl, -⟩
  · rw [hw] at hafter
    dsimp only at hafter
    omega
  · have hleft := Tables.length_without h.wellFormed doc.path
    rw [hw] at hafter
    simp only [Tables.documents_put, List.length_append, List.length_singleton] at hafter
    omega
  · exact ⟨path, rfl⟩

/-- Two documents or more keep their length until deletes leave at most one. -/
theorem Carries.exists_delete_of_dimensions_ne (h : s.Carries m) {ws : List Write}
    (hcount : 2 ≤ s.tables.documents.length)
    (hne : (s.writeAll ws).dimensions ≠ s.dimensions) :
    ∃ before path rest j, ws = before ++ .delete path :: rest ∧
      (s.writeAll (before ++ [.delete path])).count = .ok j ∧ j ≤ 1 := by
  induction ws generalizing s m with
  | nil => exact absurd rfl hne
  | cons w ws ih =>
    have hafter := h.write w
    by_cases hleft : (s.write w).2.tables.documents.length ≤ 1
    · obtain ⟨path, rfl⟩ := h.delete_of_count hcount hleft
      exact ⟨[], path, ws, _, rfl, hafter.count_ok.mpr rfl, hleft⟩
    · have hkept : (s.write w).2.dimensions = s.dimensions := by
        obtain ⟨row, hrow⟩ := List.exists_mem_of_length_pos (l := s.tables.documents) (by omega)
        obtain ⟨row', hrow'⟩ := List.exists_mem_of_length_pos
          (l := (s.write w).2.tables.documents) (by omega)
        have ha := h.dimensions_ok.mpr (Tables.dimensions_of_mem h.wellFormed hrow)
        have hb := hafter.dimensions_ok.mpr (Tables.dimensions_of_mem hafter.wellFormed hrow')
        by_contra hchanged
        have hsole := (h.sole_of_dimensions_ne ha hb fun heq => hchanged (by rw [ha, hb, heq])).2.1
        rw [h.count_ok] at hsole
        omega
      obtain ⟨before, path, rest, j, rfl, hj, hle⟩ := ih hafter (by omega) (by rwa [hkept])
      exact ⟨w :: before, path, rest, j, rfl, hj, hle⟩

/-! ## Runs of writes -/

/-- A store that was empty and has been written to since. -/
def Reached (s : Store) : Prop := ∃ location ws, s = (fresh location).writeAll ws

theorem Carries.writeAll (h : s.Carries m) (ws : List Write) :
    (s.writeAll ws).Carries ((s.accepted ws).foldl Catalogue.apply m) where
  isOpen := by
    rw [writeAll_frame]
    exact h.isOpen
  saved := by
    rw [writeAll_frame]
    exact h.saved
  wellFormed := wellFormed_writeAll h.wellFormed ws
  holds := holds_writeAll h.wellFormed h.holds ws

theorem Reached.exists_carries (h : s.Reached) : ∃ m, s.Carries m := by
  obtain ⟨location, ws, rfl⟩ := h
  exact ⟨_, (carries_fresh location).writeAll ws⟩

/-- **The lock of the length.** A store that was empty and has been written to refuses a document,
    if it could be stored otherwise, exactly where there is a document under another path and the
    length of the stored vectors is not that of its own; else the length is its own then. So a write
    that changes the length replaces the only document, and two documents or more keep their length
    until deletes leave at most one. -/
theorem dimension_lock (hs : s.Reached) :
    (∀ d doc, d.document? = some doc → (∀ r ∈ doc.references, fitsColumn r.line) →
      (∀ e, s.Locked doc.path e doc.vector.length → s.upsert d =
        (.error (.rolledBack (some doc.path) (.dimensions e doc.vector.length)), s)) ∧
      ((¬ ∃ e, s.Locked doc.path e doc.vector.length) →
        (s.upsert d).1 = .ok () ∧
          (s.upsert d).2.dimensions = .ok (some doc.vector.length))) ∧
    (∀ w a b, s.dimensions = .ok (some a) → (s.write w).2.dimensions = .ok (some b) → a ≠ b →
      (s.write w).1 = .ok () ∧ s.count = .ok 1 ∧
        ∃ d doc old, w = .upsert d ∧ d.document? = some doc ∧
          s.get doc.path = .ok (some old)) ∧
    (∀ k ws, s.count = .ok k → 2 ≤ k → (s.writeAll ws).dimensions ≠ s.dimensions →
      ∃ before path rest j, ws = before ++ .delete path :: rest ∧
        (s.writeAll (before ++ [.delete path])).count = .ok j ∧ j ≤ 1) := by
  obtain ⟨m, h⟩ := hs.exists_carries
  refine ⟨fun d doc hdoc hline => ⟨fun e hlocked => h.upsert_of_locked hdoc hlocked,
    h.upsert_of_free hdoc hline⟩, fun w a b ha hb hne => h.sole_of_dimensions_ne ha hb hne, ?_⟩
  intro k ws hk htwo hne
  rw [h.count_ok] at hk
  exact h.exists_delete_of_dimensions_ne (by omega) hne

/-- A store with one document, whose vector has one element. -/
def sampleNarrow : Store := (fresh ":memory:").writeAll [.upsert (contentDraft "let x")]

/-- A draft for a path, whose vector has two elements. -/
def widerDraft (path : String) : Draft where
  path := path
  content := "let x"
  vector := some (.many [.one (.float 1), .one (.float 1)])
  references := []
  hash := ""
  language := "js"

/-- What the draft describes. -/
def widerDocument (path : String) : StoredDocument where
  path := path
  content := "let x"
  vector := [0x3F800000, 0x3F800000]
  hash := ""
  language := "js"
  references := []

set_option maxRecDepth 20000 in
theorem dimension_lock_wider :
    sampleNarrow.upsert (widerDraft "b.js") =
        (.error (.rolledBack (some "b.js") (.dimensions 1 2)), sampleNarrow) ∧
      (sampleNarrow.upsert (widerDraft "a.js")).2.dimensions = .ok (some 2) := by
  have hreached : sampleNarrow.Reached := ⟨_, _, rfl⟩
  have hdoc (path : String) : (widerDraft path).document? = some (widerDocument path) := by rfl
  have hline (path : String) : ∀ r ∈ (widerDocument path).references, fitsColumn r.line := by
    intro r hr
    cases hr
  have hlength : sampleNarrow.dimensions = .ok (some 1) := by rfl
  have hpaths : sampleNarrow.tables.documents.map DocumentRow.path = ["a.js"] := by rfl
  obtain ⟨m, hcarries⟩ := hreached.exists_carries
  have hread {q : String} : (∃ doc, sampleNarrow.get q = .ok (some doc)) ↔ q = "a.js" := by
    rw [hcarries.exists_get_iff, ← List.mem_singleton, ← hpaths, List.mem_map]
  have hlock := (dimension_lock hreached).1
  constructor
  · refine (hlock _ _ (hdoc "b.js") (hline "b.js")).1 1 ⟨?_, hlength, by decide⟩
    obtain ⟨doc, hget⟩ := hread.mpr rfl
    exact ⟨"a.js", doc, by decide, hget⟩
  · refine ((hlock _ _ (hdoc "a.js") (hline "a.js")).2 ?_).2
    rintro ⟨e, ⟨q, doc, hq, hget⟩, -, -⟩
    exact hq (hread.mp ⟨doc, hget⟩)

end Store

end SourceAtlas
