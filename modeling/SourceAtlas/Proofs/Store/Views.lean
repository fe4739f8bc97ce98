import Mathlib.Data.List.Nodup
import SourceAtlas.Proofs.Store.Catalogue
import SourceAtlas.Proofs.Store.Order
import SourceAtlas.Proofs.Text.Utf8

/-!
# What is read from a store

Every view of a store is a function of the catalogue that its tables hold. All of them agree with
the list of all documents, and what was replaced or removed on the way cannot be seen.

Results:
* `shows_of_holds`: the views of an open store whose tables hold a catalogue.
* `alike_of_shows`: stores that show one catalogue answer alike.
* `views_of_run`: the views of a store after any writes.
-/

namespace SourceAtlas

open Text

/-- A document as it is read: its references in the order of their lines, those of one line in the
    order given. -/
def StoredDocument.inOrder (d : StoredDocument) : StoredDocument :=
  { d with references := d.references.mergeSort StoredReference.lineLe }

namespace Tables

variable {t : Tables} {m : Catalogue} {p : String} {d : DocumentRow}

/-! ## Documents in order -/

/-- The documents in the order of their paths. -/
def sortedDocuments (t : Tables) : List DocumentRow := t.documents.mergeSort DocumentRow.le

/-- All documents as they are read. -/
def listed (t : Tables) : List StoredDocument := t.sortedDocuments.map (document t.rows)

theorem sortedDocuments_perm (t : Tables) : t.sortedDocuments.Perm t.documents :=
  List.mergeSort_perm _ _

theorem row?_eq_some_iff (h : t.WellFormed) : t.row? p = some d ↔ d ∈ t.documents ∧ d.path = p := by
  constructor
  · intro hr
    unfold row? at hr
    have hp := List.find?_some hr
    exact ⟨List.mem_of_find?_eq_some hr, beq_iff_eq.mp hp⟩
  · rintro ⟨hd, rfl⟩
    have hfound : (t.documents.find? fun e => e.path == d.path).isSome :=
      List.find?_isSome.mpr ⟨d, hd, beq_self_eq_true _⟩
    obtain ⟨e, he⟩ := Option.isSome_iff_exists.mp hfound
    have hp := List.find?_some he
    have hed := List.inj_on_of_nodup_map h.distinct (List.mem_of_find?_eq_some he) hd
      (beq_iff_eq.mp hp)
    unfold row?
    rw [he, hed]

/-- Under a path lies the one document that is found there. -/
theorem filter_sortedDocuments (h : t.WellFormed) (p : String) :
    (t.sortedDocuments.filter fun d => d.path == p) = (t.row? p).toList := by
  have hnodup : t.sortedDocuments.Nodup :=
    t.sortedDocuments_perm.nodup_iff.mpr (List.Nodup.of_map _ h.distinct)
  have hperm : (t.sortedDocuments.filter fun d => d.path == p).Perm (t.row? p).toList := by
    rw [List.perm_ext_iff_of_nodup (hnodup.filter _) (by cases t.row? p <;> simp)]
    intro d
    rw [List.mem_filter, t.sortedDocuments_perm.mem_iff, Option.mem_toList, row?_eq_some_iff h,
      beq_iff_eq]
  cases hr : t.row? p with
  | none =>
    rw [hr] at hperm
    exact List.perm_nil.mp hperm
  | some d =>
    rw [hr] at hperm
    exact List.perm_singleton.mp hperm

theorem pairwise_sortedDocuments (h : t.WellFormed) :
    t.sortedDocuments.Pairwise fun a b => a.path < b.path := by
  have hle : t.sortedDocuments.Pairwise fun a b => a.path ≤ b.path :=
    pairwise_mergeSort_text DocumentRow.path t.documents
  have hne : t.sortedDocuments.Pairwise fun a b => a.path ≠ b.path :=
    List.pairwise_map.mp ((t.sortedDocuments_perm.map _).nodup_iff.mpr h.distinct)
  refine (hle.and hne).imp fun hab => ?_
  by_contra hnot
  exact hab.2 (String.le_antisymm hab.1 (String.not_lt.mp hnot))

/-- A row is read as the document of the catalogue that lies under its path. -/
theorem document_eq (h : t.WellFormed) (hm : t.Holds m) (hr : t.row? p = some d) :
    ∃ doc, m p = some doc ∧ document t.rows d = doc.inOrder := by
  have hrow := hm.row? p
  have howned := hm.owned p
  have hp := ((row?_eq_some_iff h).mp hr).2
  rw [hr] at hrow
  obtain ⟨doc, hdoc, rfl⟩ := Option.map_eq_some_iff.mp hrow.symm
  rw [hdoc, Option.map_some, Option.getD_some] at howned
  have hid : (t.owned p).Pairwise fun a b => a.id < b.id :=
    h.ascending.sublist List.filter_sublist
  have hpath : ∀ r ∈ t.owned p, r.path = p :=
    fun r hr => beq_iff_eq.mp (List.mem_filter.mp hr).2
  refine ⟨doc, hdoc, ?_⟩
  unfold document StoredDocument.inOrder
  rw [filter_sortedReferences h.ascending, hp, ← howned, ← map_view_sortedReferences hid hpath]
  simp only [StoredDocument.toRow, decodeVector_encodeVector, owned, ← hp]

/-- All documents are those of the catalogue, each once. -/
theorem filter_listed (h : t.WellFormed) (hm : t.Holds m) (p : String) :
    (t.listed.filter fun doc => doc.path == p) = ((m p).map StoredDocument.inOrder).toList := by
  have hfilter : (t.listed.filter fun doc => doc.path == p) =
      (t.sortedDocuments.filter fun d => d.path == p).map (document t.rows) := List.filter_map
  rw [hfilter, filter_sortedDocuments h]
  cases hr : t.row? p with
  | none =>
    have hrow := hm.row? p
    rw [hr] at hrow
    rw [Option.map_eq_none_iff.mp hrow.symm]
    rfl
  | some d =>
    obtain ⟨doc, hdoc, heq⟩ := document_eq h hm hr
    rw [hdoc, Option.map_some, Option.toList_some, Option.toList_some, List.map_singleton, heq]

theorem pairwise_listed (h : t.WellFormed) :
    t.listed.Pairwise fun a b => Utf8.encode a.path.toList < Utf8.encode b.path.toList := by
  refine List.pairwise_map.mpr ((pairwise_sortedDocuments h).imp fun hlt => ?_)
  exact Utf8.encode_lt_encode hlt

theorem length_listed (t : Tables) : t.listed.length = t.documents.length := by
  unfold listed
  rw [List.length_map, t.sortedDocuments_perm.length_eq]

/-- All references in order are those of all documents, one document after another. -/
theorem flatMap_listed (h : t.WellFormed) :
    t.listed.flatMap StoredDocument.references =
      (sortedReferences t.rows).map ReferenceRow.view := by
  have hperm := sortedReferences_perm t.rows
  have hparts : ((t.sortedDocuments.map DocumentRow.path).flatMap fun p =>
      (sortedReferences t.rows).filter fun r => r.path == p) = sortedReferences t.rows := by
    have hpaths := List.pairwise_map.mpr (pairwise_sortedDocuments h)
    refine flatMap_filter_eq String.lt_irrefl hpaths ?_ ?_
    · refine (pairwise_sortedReferences t.rows).imp fun hab hlt => ?_
      rcases ReferenceRow.le_iff.mp hab with hp | ⟨hp, -⟩
      · exact String.lt_asymm hp hlt
      · exact String.lt_irrefl _ (hp ▸ hlt)
    · intro r hr
      obtain ⟨d, hd, hp⟩ := h.owned r (hperm.mem_iff.mp hr)
      rw [← hp]
      exact List.mem_map_of_mem (t.sortedDocuments_perm.mem_iff.mpr hd)
  rw [← hparts, List.map_flatMap, List.flatMap_map, listed, List.flatMap_map]
  rfl

/-- The first document speaks for the length of all vectors. -/
theorem dimensions_listed (h : t.WellFormed) :
    t.dimensions = t.listed.head?.map fun doc => doc.vector.length := by
  have hlength := t.sortedDocuments_perm.length_eq
  unfold Tables.dimensions listed
  cases hs : t.sortedDocuments with
  | nil =>
    rw [hs] at hlength
    rw [List.eq_nil_of_length_eq_zero hlength.symm]
    rfl
  | cons d ds =>
    have hd : d ∈ t.documents := t.sortedDocuments_perm.mem_iff.mp (hs ▸ List.mem_cons_self)
    cases ht : t.documents with
    | nil => rw [ht] at hd; cases hd
    | cons e es =>
      have he : e ∈ t.documents := ht ▸ List.mem_cons_self
      simp [document, (h.sound d hd).length, h.dimensions e he d hd]

end Tables

/-! ## Views -/

/-- The references to a name, of one kind or of any. -/
def StoredReference.wanted (name : String) (kind : Option RefKind) (r : StoredReference) : Bool :=
  r.name == .text name && kind.all (· == r.kind)

namespace Store

/-- A store shows a catalogue as a list of documents: the documents of the catalogue, each once and
    in order, in ascending order of the bytes of their paths. All other views agree with them. -/
structure Shows (s : Store) (m : Catalogue) (docs : List StoredDocument) : Prop where
  all : s.all = .ok docs
  entries : ∀ p, (docs.filter fun doc => doc.path == p) =
    ((m p).map StoredDocument.inOrder).toList
  ascending : docs.Pairwise fun a b => Utf8.encode a.path.toList < Utf8.encode b.path.toList
  paths : ∀ doc ∈ docs, ∀ r ∈ doc.references, r.path = doc.path
  lines : ∀ doc ∈ docs, doc.references.Pairwise fun a b => a.line ≤ b.line
  ties : ∀ p doc, m p = some doc → ∀ n,
    (doc.inOrder.references.filter fun r => r.line == n) =
      doc.references.filter fun r => r.line == n
  get : ∀ p, s.get p = .ok (docs.find? fun doc => doc.path == p)
  hash : ∀ p, s.hash p = .ok ((docs.find? fun doc => doc.path == p).map StoredDocument.hash)
  count : s.count = .ok docs.length
  find : ∀ name kind, s.find name kind =
    .ok ((docs.flatMap StoredDocument.references).filter (StoredReference.wanted name kind))
  dimensions : s.dimensions = .ok (docs.head?.map fun doc => doc.vector.length)
  summary : s.summary = .ok {
    location := s.location
    documents := docs.length
    references := (docs.flatMap StoredDocument.references).length
    byKind := (RefKind.all.map fun k => (k,
      ((docs.flatMap StoredDocument.references).filter fun r => r.kind == k).length)).filter
        fun e => e.2 != 0
    dimensions := docs.head?.map fun doc => doc.vector.length }

variable {s s' : Store} {m : Catalogue} {docs docs' : List StoredDocument}

/-! ## Each view of an open store -/

section Open

variable {s : Store} (ho : s.isOpen)

include ho

theorem readable_eq : s.readable = .ok s.tables := if_pos ho

theorem hash_eq (p : String) : s.hash p = .ok ((s.tables.row? p).map DocumentRow.hash) := by
  unfold Store.hash
  rw [readable_eq ho]
  rfl

theorem count_eq : s.count = .ok s.tables.documents.length := by
  unfold Store.count
  rw [readable_eq ho]
  rfl

theorem dimensions_eq : s.dimensions = .ok s.tables.dimensions := by
  unfold Store.dimensions
  rw [readable_eq ho]
  rfl

variable (hr : s.tables.references.isSome)

include hr

omit ho in
theorem referencesOf_eq : referencesOf s.tables = .ok s.tables.rows := by
  rw [referencesOf, Tables.references_eq_rows hr]
  rfl

theorem all_eq : s.all = .ok s.tables.listed := by
  unfold Store.all
  rw [readable_eq ho]
  simp only [bind, Except.bind, referencesOf_eq hr]
  rfl

theorem get_eq (p : String) :
    s.get p = .ok ((s.tables.row? p).map (Tables.document s.tables.rows)) := by
  unfold Store.get
  rw [readable_eq ho]
  simp only [bind, Except.bind, referencesOf_eq hr]
  cases s.tables.row? p <;> rfl

theorem find_eq (name : String) (kind : Option RefKind) : s.find name kind =
    .ok (((Tables.sortedReferences s.tables.rows).map ReferenceRow.view).filter
      (StoredReference.wanted name kind)) := by
  unfold Store.find
  rw [readable_eq ho, List.filter_map]
  simp only [bind, Except.bind, referencesOf_eq hr]
  rfl

theorem summary_eq : s.summary = .ok {
    location := s.location
    documents := s.tables.documents.length
    references := s.tables.rows.length
    byKind := (RefKind.all.map fun k => (k, countKind s.tables.rows k)).filter fun e => e.2 != 0
    dimensions := s.tables.dimensions } := by
  unfold Store.summary
  rw [readable_eq ho]
  simp only [bind, Except.bind, referencesOf_eq hr]
  rfl

end Open

/-- As many references of a kind are read as there are rows of it. -/
theorem countKind_eq (rows : List ReferenceRow) (k : RefKind) : countKind rows k =
    (((Tables.sortedReferences rows).map ReferenceRow.view).filter
      fun r => r.kind == k).length := by
  rw [List.filter_map, List.length_map]
  exact (((sortedReferences_perm rows).filter _).length_eq).symm

/-! ## All views together -/

variable {s s' : Store} {m : Catalogue} {docs docs' : List StoredDocument}

/-- The views of an open store whose tables are well formed and hold a catalogue. -/
theorem shows_of_holds (ho : s.isOpen) (hw : s.tables.WellFormed) (hm : s.tables.Holds m) :
    s.Shows m s.tables.listed := by
  have hfind (p : String) : (s.tables.listed.find? fun doc => doc.path == p) =
      (m p).map StoredDocument.inOrder := by
    rw [← List.head?_filter, Tables.filter_listed hw hm]
    cases m p <;> rfl
  have hentry : ∀ doc ∈ s.tables.listed,
      ∃ entry, m doc.path = some entry ∧ doc = entry.inOrder := by
    intro doc hdoc
    have : doc ∈ s.tables.listed.filter fun d => d.path == doc.path :=
      List.mem_filter.mpr ⟨hdoc, beq_self_eq_true _⟩
    rw [Tables.filter_listed hw hm, Option.mem_toList, Option.map_eq_some_iff] at this
    obtain ⟨entry, he, heq⟩ := this
    exact ⟨entry, he, heq.symm⟩
  have hrefs := Tables.flatMap_listed hw
  constructor
  case all => exact all_eq ho hw.present
  case entries => exact Tables.filter_listed hw hm
  case ascending => exact Tables.pairwise_listed hw
  case paths =>
    intro doc hdoc r hr
    obtain ⟨entry, he, heq⟩ := hentry doc hdoc
    rw [heq] at hr
    exact (hm.path_eq he).2 r (List.mem_mergeSort.mp hr)
  case lines =>
    intro doc hdoc
    obtain ⟨entry, -, heq⟩ := hentry doc hdoc
    rw [heq]
    exact (List.pairwise_mergeSort StoredReference.lineLe_trans StoredReference.lineLe_total
      entry.references).imp fun h => StoredReference.lineLe_iff.mp h
  case ties => exact fun p doc _ n => filter_mergeSort_line n doc.references
  case get =>
    intro p
    rw [get_eq ho hw.present, hfind]
    cases hr : s.tables.row? p with
    | none =>
      have hrow := hm.row? p
      rw [hr] at hrow
      rw [Option.map_eq_none_iff.mp hrow.symm]
      rfl
    | some d =>
      obtain ⟨doc, hdoc, heq⟩ := Tables.document_eq hw hm hr
      rw [hdoc, Option.map_some, Option.map_some, heq]
  case hash =>
    intro p
    rw [hash_eq ho, hfind, hm.row?, Option.map_map, Option.map_map]
    rfl
  case count => rw [count_eq ho, Tables.length_listed]
  case find =>
    intro name kind
    rw [find_eq ho hw.present, hrefs]
  case dimensions => rw [dimensions_eq ho, Tables.dimensions_listed hw]
  case summary =>
    have hlength := (sortedReferences_perm s.tables.rows).length_eq
    rw [summary_eq ho hw.present, ← Tables.dimensions_listed hw, hrefs, Tables.length_listed,
      List.length_map, hlength]
    simp only [countKind_eq]

/-- A document that is shown is one of the catalogue. -/
theorem Shows.exists_entry (h : s.Shows m docs) {doc : StoredDocument} (hdoc : doc ∈ docs) :
    ∃ entry, m doc.path = some entry ∧ doc = entry.inOrder := by
  have hmem : doc ∈ docs.filter fun d => d.path == doc.path :=
    List.mem_filter.mpr ⟨hdoc, beq_self_eq_true _⟩
  rw [h.entries, Option.mem_toList, Option.map_eq_some_iff] at hmem
  obtain ⟨entry, he, heq⟩ := hmem
  exact ⟨entry, he, heq.symm⟩

/-- Stores show one catalogue as the same list. -/
theorem listed_unique (h : s.Shows m docs) (h' : s'.Shows m docs') : docs = docs' := by
  have hmem {s : Store} {docs : List StoredDocument} (h : s.Shows m docs) (doc : StoredDocument) :
      doc ∈ docs ↔ (m doc.path).map StoredDocument.inOrder = some doc := by
    rw [← Option.mem_toList, ← h.entries, List.mem_filter]
    simp
  have hnodup {s : Store} {docs : List StoredDocument} (h : s.Shows m docs) : docs.Nodup :=
    h.ascending.imp fun hlt heq => by subst heq; exact List.lt_irrefl _ hlt
  refine List.Perm.eq_of_pairwise ?_ h.ascending h'.ascending ?_
  · intro a b _ _ hab hba
    exact absurd hba (List.lt_asymm hab)
  · rw [List.perm_ext_iff_of_nodup (hnodup h) (hnodup h')]
    intro doc
    rw [hmem h, hmem h']

/-- Stores answer alike: no view tells them apart. -/
structure Alike (s s' : Store) : Prop where
  all : s.all = s'.all
  get : ∀ p, s.get p = s'.get p
  hash : ∀ p, s.hash p = s'.hash p
  count : s.count = s'.count
  find : ∀ name kind, s.find name kind = s'.find name kind
  dimensions : s.dimensions = s'.dimensions
  summary : s.summary = s'.summary

theorem Alike.refl (s : Store) : s.Alike s := by
  constructor <;> intros <;> rfl

/-- Stores at one location that show one catalogue answer alike. -/
theorem alike_of_shows (hl : s.location = s'.location) (h : s.Shows m docs)
    (h' : s'.Shows m docs') : s.Alike s' := by
  obtain rfl := listed_unique h h'
  constructor
  case all => rw [h.all, h'.all]
  case get => intro p; rw [h.get, h'.get]
  case hash => intro p; rw [h.hash, h'.hash]
  case count => rw [h.count, h'.count]
  case find => intro name kind; rw [h.find, h'.find]
  case dimensions => rw [h.dimensions, h'.dimensions]
  case summary => rw [h.summary, h'.summary, hl]

/-! ## Views after a run -/

/-- After any writes to an empty store, of which some may fail, its views show the catalogue of
    those that succeeded. A run with the same catalogue leaves a store that answers alike. -/
theorem views_of_run (location : String) (ws : List Write) :
    (∃ docs, ((fresh location).writeAll ws).Shows
      (Catalogue.ofWrites ((fresh location).accepted ws)) docs) ∧
    ∀ ws', Catalogue.ofWrites ((fresh location).accepted ws') =
        Catalogue.ofWrites ((fresh location).accepted ws) →
      ((fresh location).writeAll ws).Alike ((fresh location).writeAll ws') := by
  have hshows (ws : List Write) :
      ((fresh location).writeAll ws).Shows (Catalogue.ofWrites ((fresh location).accepted ws))
        ((fresh location).writeAll ws).tables.listed := by
    have hw : ((fresh location).writeAll ws).tables.WellFormed :=
      wellFormed_writeAll Tables.wellFormed_empty ws
    exact shows_of_holds (by rw [writeAll_frame]; rfl) hw (holds_run location ws)
  refine ⟨⟨_, hshows ws⟩, fun ws' hm => ?_⟩
  refine alike_of_shows ?_ (hshows ws) (hm ▸ hshows ws')
  rw [writeAll_frame, writeAll_frame _ ws']

/-- A draft for one path, with a content. -/
def contentDraft (content : String) : Draft where
  path := "a.js"
  content := content
  vector := some (.many [.one (.float 1)])
  references := [⟨"x", .text "usage", .int 1, none⟩]
  hash := ""
  language := "js"

set_option maxRecDepth 20000 in
theorem views_of_run_twice :
    ((fresh ":memory:").writeAll [.upsert (contentDraft "let x")]).Alike
      ((fresh ":memory:").writeAll
        [.upsert (contentDraft "x"), .upsert (contentDraft "let x")]) := by
  have honce : (fresh ":memory:").accepted [.upsert (contentDraft "let x")] =
      [.upsert (contentDraft "let x")] := by rfl
  have htwice : (fresh ":memory:").accepted
      [.upsert (contentDraft "x"), .upsert (contentDraft "let x")] =
        [.upsert (contentDraft "x"), .upsert (contentDraft "let x")] := by rfl
  refine (views_of_run _ _).2 _ ?_
  rw [honce, htwice]
  exact Function.update_idem _ _ _

end Store

end SourceAtlas
