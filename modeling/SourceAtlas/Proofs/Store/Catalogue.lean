import Mathlib.Data.List.Basic
import Mathlib.Logic.Function.Basic
import SourceAtlas.Proofs.Store.Invariant
import SourceAtlas.Store.Read

/-!
# The map that a store holds

A catalogue is what a store is for: for each path the document that was written to it last. The
tables of a store hold one, whatever has been written to them, replaced and removed on the way.

Results:
* `holds_catalogue`: tables that are well formed hold a catalogue.
* `holds_write`: a write that succeeds does to the tables what it does to the catalogue.
* `Carries`: what all writes keep of a store, with the catalogue that it has after them.
* `holds_run`: after any writes the tables hold the catalogue of those that succeeded.
-/

namespace SourceAtlas

/-! ## Catalogues -/

/-- For each path the document that is stored under it, its references in the order given. -/
abbrev Catalogue := String → Option StoredDocument

namespace Catalogue

def empty : Catalogue := fun _ => none

/-- What a write makes of a catalogue when it succeeds. -/
def apply (m : Catalogue) : Write → Catalogue
  | .upsert d =>
    match d.document? with
    | some doc => Function.update m doc.path (some doc)
    | none => m
  | .delete (some path) => Function.update m path none
  | .delete none => m

/-- The catalogue of writes that all succeed, one after another. -/
def ofWrites (ws : List Write) : Catalogue := ws.foldl apply empty

end Catalogue

/-! ## Rows under a path -/

namespace Tables

variable {t : Tables} {path p : String}

/-- The references that a path owns, in the order in which they were written. -/
def owned (t : Tables) (path : String) : List ReferenceRow := t.rows.filter fun r => r.path == path

theorem row?_without : (t.without path).row? p = if p = path then none else t.row? p := by
  unfold row?
  rw [documents_without, List.find?_filter]
  split
  · rename_i h
    simp [h]
  · rename_i h
    congr 1
    funext d
    by_cases hd : d.path = p <;> simp [hd, h]

theorem owned_without : (t.without path).owned p = if p = path then [] else t.owned p := by
  unfold owned
  rw [rows_without, List.filter_filter]
  split
  · rename_i h
    simp [h]
  · rename_i h
    refine List.filter_congr fun r _ => ?_
    by_cases hr : r.path = p <;> simp [hr, h]

/-- A removal without a path removes nothing. -/
theorem without_none (t : Tables) : t.without none = t := by
  obtain ⟨documents, references, nextId⟩ := t
  cases references <;> simp [without]

theorem row?_put {row : DocumentRow} {news : List ReferenceRow}
    (hnew : ∀ d ∈ t.documents, d.path ≠ row.path) :
    (t.put row news).row? p = if p = row.path then some row else t.row? p := by
  unfold row?
  rw [documents_put, List.find?_append]
  split
  · rename_i h
    have hnone : t.documents.find? (fun d => d.path == p) = none := by
      rw [List.find?_eq_none]
      simpa [h] using hnew
    rw [hnone, Option.none_or, h, List.find?_singleton, if_pos (beq_self_eq_true _)]
  · rename_i h
    simp [Ne.symm h]

theorem owned_put {row : DocumentRow} {news : List ReferenceRow} (href : t.references.isSome)
    (hnew : ∀ r ∈ t.rows, r.path ≠ row.path) (hnews : ∀ r ∈ news, r.path = row.path) :
    (t.put row news).owned p = if p = row.path then news else t.owned p := by
  unfold owned
  rw [rows_put href, List.filter_append]
  split
  · rename_i h
    have hold : t.rows.filter (fun r => r.path == p) = [] := by simpa [h] using hnew
    have hall : news.filter (fun r => r.path == p) = news := by simpa [h] using hnews
    rw [hold, hall, List.nil_append]
  · rename_i h
    have hnone : news.filter (fun r => r.path == p) = [] := by
      rw [List.filter_eq_nil_iff]
      intro r hr
      simpa [hnews r hr] using Ne.symm h
    rw [hnone, List.append_nil]

/-- Tables hold a catalogue: under each path the row of its document, and its references in the
    order in which they were given. -/
structure Holds (t : Tables) (m : Catalogue) : Prop where
  row? : ∀ p, t.row? p = (m p).map StoredDocument.toRow
  owned : ∀ p, (t.owned p).map ReferenceRow.view =
    ((m p).map StoredDocument.references).getD []

theorem holds_empty : Tables.empty.Holds Catalogue.empty where
  row? := fun _ => rfl
  owned := fun _ => rfl

variable {m : Catalogue}

theorem Holds.without (h : t.Holds m) (path : String) :
    (t.without path).Holds (Function.update m path none) where
  row? := by
    intro p
    rw [row?_without, Function.update_apply]
    split
    · rfl
    · exact h.row? p
  owned := by
    intro p
    rw [owned_without, Function.update_apply]
    split
    · rfl
    · exact h.owned p

theorem Holds.put (h : t.Holds m) {doc : StoredDocument} (hw : t.WellFormed) (id : Nat)
    (hnew : ∀ d ∈ t.documents, d.path ≠ doc.path)
    (hpath : ∀ r ∈ doc.references, r.path = doc.path) :
    (t.put doc.toRow (numbered id doc.references)).Holds
      (Function.update m doc.path (some doc)) where
  row? := by
    intro p
    rw [row?_put hnew, Function.update_apply]
    split
    · rw [if_pos ‹_›, Option.map_some]
    · rw [if_neg ‹_›]
      exact h.row? p
  owned := by
    intro p
    have hrows : ∀ r ∈ t.rows, r.path ≠ doc.path := by
      intro r hr hp
      obtain ⟨d, hd, hdp⟩ := hw.owned r hr
      exact hnew d hd (hdp.trans hp)
    have hnews : ∀ r ∈ numbered id doc.references, r.path = doc.path :=
      fun r hr => hpath _ (exists_of_mem_numbered hr).2.2
    rw [owned_put hw.present hrows hnews, Function.update_apply]
    split
    · rw [if_pos ‹_›, map_view_numbered, Option.map_some, Option.getD_some]
    · rw [if_neg ‹_›]
      exact h.owned p

/-- The catalogue that can be read off tables. -/
def catalogue (t : Tables) : Catalogue := fun p =>
  (t.row? p).map fun d =>
    { path := d.path
      content := d.content
      vector := decodeVector d.vector
      hash := d.hash
      language := d.language
      references := (t.owned p).map ReferenceRow.view }

/-- Tables that are well formed hold a catalogue. -/
theorem holds_catalogue (h : t.WellFormed) : t.Holds t.catalogue where
  row? := by
    intro p
    unfold catalogue
    cases hr : t.row? p with
    | none => rfl
    | some d =>
      have hsound := h.sound d (List.mem_of_find?_eq_some hr)
      simp only [Option.map_some, StoredDocument.toRow, encodeVector_decodeVector hsound.bytes,
        hsound.length]
  owned := by
    intro p
    unfold catalogue
    cases hr : t.row? p with
    | none =>
      -- References go with a document under their path, and there is none.
      have hnone : t.owned p = [] := by
        unfold owned
        rw [List.filter_eq_nil_iff]
        intro r hmem hp
        obtain ⟨d, hd, hdp⟩ := h.owned r hmem
        have hpath := List.find?_eq_none.mp hr d hd
        rw [hdp] at hpath
        exact hpath hp
      rw [hnone]
      rfl
    | some d => rfl

/-- The document of a path lies under that path, and so do its references. -/
theorem Holds.path_eq (h : t.Holds m) {doc : StoredDocument} (hm : m p = some doc) :
    doc.path = p ∧ ∀ r ∈ doc.references, r.path = p := by
  have hrow := h.row? p
  have howned := h.owned p
  rw [hm, Option.map_some] at hrow howned
  rw [Option.getD_some] at howned
  constructor
  · have := List.find?_some hrow
    exact beq_iff_eq.mp this
  · intro r hr
    rw [← howned] at hr
    obtain ⟨row, hrow, rfl⟩ := List.mem_map.mp hr
    exact beq_iff_eq.mp (List.mem_filter.mp hrow).2

end Tables

/-! ## Runs of writes -/

namespace Store

/-- A write that succeeds does to the tables what it does to the catalogue; one that fails does
    nothing. -/
theorem holds_write {s : Store} {m : Catalogue} (hw : s.tables.WellFormed) (h : s.tables.Holds m)
    (w : Write) : (s.write w).2.tables.Holds ((s.accepted [w]).foldl Catalogue.apply m) := by
  rcases write_cases s w with ⟨e, hr⟩ | ⟨d, doc, rfl, hdoc, -, -, hr⟩ | ⟨path, rfl, hr⟩
  · simp only [accepted, hr]
    exact h
  · simp only [accepted, hr, List.foldl_cons, List.foldl_nil, Catalogue.apply, hdoc]
    have hput := (h.without doc.path).put (hw.without doc.path) s.tables.nextId
      (fun _ hd => Tables.path_ne_of_mem_without hd) (Draft.path_of_mem_references hdoc)
    rwa [Function.update_idem] at hput
  · simp only [accepted, hr, List.foldl_cons, List.foldl_nil]
    cases path with
    | none => exact (Tables.without_none _).symm ▸ h
    | some path => exact h.without path

/-- An open store with no transaction under way, whose tables are well formed and hold a
    catalogue. -/
structure Carries (s : Store) (m : Catalogue) : Prop where
  isOpen : s.isOpen
  saved : s.saved = none
  wellFormed : s.tables.WellFormed
  holds : s.tables.Holds m

theorem carries_fresh (location : String) : (fresh location).Carries .empty where
  isOpen := rfl
  saved := rfl
  wellFormed := Tables.wellFormed_empty
  holds := Tables.holds_empty

theorem carries_catalogue {s : Store} (ho : s.isOpen) (hs : s.saved = none)
    (hw : s.tables.WellFormed) : s.Carries s.tables.catalogue :=
  ⟨ho, hs, hw, Tables.holds_catalogue hw⟩

theorem Carries.write {s : Store} {m : Catalogue} (h : s.Carries m) (w : Write) :
    (s.write w).2.Carries ((s.accepted [w]).foldl Catalogue.apply m) where
  isOpen := by
    rw [write_frame]
    exact h.isOpen
  saved := by
    rw [write_frame]
    exact h.saved
  wellFormed := wellFormed_write h.wellFormed w
  holds := holds_write h.wellFormed h.holds w

theorem Carries.upsert_ok {s : Store} {m : Catalogue} (h : s.Carries m) {d : Draft}
    {doc : StoredDocument} (hd : (s.upsert d).1 = .ok ()) (hdoc : d.document? = some doc) :
    (s.upsert d).2.Carries (Function.update m doc.path (some doc)) := by
  have hwrite := h.write (.upsert d)
  have hok : s.write (.upsert d) = (.ok (), (s.upsert d).2) := Prod.ext hd rfl
  simp only [accepted, hok, List.foldl_cons, List.foldl_nil, Catalogue.apply, hdoc] at hwrite
  exact hwrite

/-- A store that is handed a document carries it on, or what it has carried before. -/
theorem Carries.upsert {s : Store} {m : Catalogue} (h : s.Carries m) (d : Draft) :
    (s.upsert d).2.Carries m ∨
      ∃ doc, d.document? = some doc ∧ (∀ r ∈ doc.references, fitsColumn r.line) ∧
        (s.upsert d).2.Carries (Function.update m doc.path (some doc)) := by
  cases hd : (s.upsert d).1 with
  | error e =>
    have hs := upsert_error hd
    rw [hs]
    exact Or.inl h
  | ok u =>
    have hok : s.upsert d = (.ok (), (s.upsert d).2) := Prod.ext hd rfl
    obtain ⟨-, -, -, doc, hdoc, -, hline, -⟩ := upsert_ok_iff.mp hok
    exact Or.inr ⟨doc, hdoc, hline, h.upsert_ok hd hdoc⟩

theorem Carries.delete {s : Store} {m : Catalogue} (h : s.Carries m) (path : String) :
    (s.delete (some path)).2.Carries m ∨
      (s.delete (some path)).2.Carries (Function.update m path none) := by
  have hwrite := h.write (.delete (some path))
  cases hd : (s.delete (some path)).1 with
  | error e =>
    have hs : (s.delete (some path)).2 = s :=
      write_error (w := .delete (some path)) (by rw [write_delete, hd]; rfl)
    rw [hs]
    exact Or.inl h
  | ok removed =>
    have hok : s.write (.delete (some path)) = (.ok (), (s.delete (some path)).2) :=
      Prod.ext (by rw [write_delete, hd]; rfl) rfl
    simp only [accepted, hok, List.foldl_cons, List.foldl_nil, Catalogue.apply] at hwrite
    exact Or.inr hwrite

theorem accepted_cons (s : Store) (w : Write) (ws : List Write) :
    s.accepted (w :: ws) = s.accepted [w] ++ (s.write w).2.accepted ws := by
  cases h : s.write w with
  | mk result s' => cases result <;> simp [accepted, h]

theorem holds_writeAll {s : Store} {m : Catalogue} (hw : s.tables.WellFormed) (h : s.tables.Holds m)
    (ws : List Write) :
    (s.writeAll ws).tables.Holds ((s.accepted ws).foldl Catalogue.apply m) := by
  induction ws generalizing s m with
  | nil => exact h
  | cons w ws ih =>
    rw [accepted_cons, List.foldl_append]
    exact ih (wellFormed_write hw w) (holds_write hw h w)

/-- After any writes to an empty store its tables hold the catalogue of those that succeeded. -/
theorem holds_run (location : String) (ws : List Write) :
    ((fresh location).writeAll ws).tables.Holds
      (Catalogue.ofWrites ((fresh location).accepted ws)) :=
  holds_writeAll Tables.wellFormed_empty Tables.holds_empty ws

end Store

end SourceAtlas
