import SourceAtlas.Proofs.Files.Walk
import SourceAtlas.Proofs.Path.Join
import SourceAtlas.Proofs.Store.Dimension
import SourceAtlas.Session.Basic

/-!
# Keys of documents and removals by them

A session stores the document of a file under the file's key. Keys tell files apart and can be read
as paths, so that what is stored can be removed by its key as well as by its path.

Results:
* `Carries.delete_ok`: a removal takes away the document under a path and nothing else.
* `key_identifies`: what the key of a path tells of it, and what is removed by it.
-/

namespace SourceAtlas

/-! ## Removals -/

namespace Tables

variable {t : Tables}

theorem sortedDocuments_without (h : t.WellFormed) (path : String) :
    (t.without path).sortedDocuments = t.sortedDocuments.filter fun d => d.path != path := by
  have hkept : (fun d : DocumentRow => some d.path != some path) = fun d => d.path != path := by
    funext d
    rfl
  unfold sortedDocuments
  rw [documents_without, hkept]
  symm
  apply filter_mergeSort
  · intro a b c hab hbc
    exact decide_eq_true (String.le_trans (of_decide_eq_true hab) (of_decide_eq_true hbc))
  · intro a b
    simpa [DocumentRow.le] using String.le_total a.path b.path
  · intro a ha b hb hab hba
    exact List.inj_on_of_nodup_map h.distinct ha hb
      (String.le_antisymm (of_decide_eq_true hab) (of_decide_eq_true hba))

/-- Without a path all other documents are read as before. -/
theorem listed_without (h : t.WellFormed) (path : String) :
    (t.without path).listed = t.listed.filter fun doc => doc.path != path := by
  unfold listed
  rw [sortedDocuments_without h, List.filter_map]
  refine List.map_congr_left fun d hd => ?_
  have hne : d.path ≠ path := by simpa using (List.mem_filter.mp hd).2
  unfold document
  rw [filter_sortedReferences h.ascending, filter_sortedReferences (h.without path).ascending,
    rows_without, List.filter_filter]
  congr 3
  refine List.filter_congr fun r _ => ?_
  by_cases hr : r.path = d.path <;> simp [hr, hne]

theorem any_listed (t : Tables) (path : String) :
    (t.listed.any fun doc => doc.path == path) = t.documents.any fun d => d.path == path := by
  unfold listed
  rw [List.any_map, t.sortedDocuments_perm.any_eq]
  rfl

end Tables

/-- A removal takes away the document under a path and nothing else, and tells whether there was
    one. -/
theorem Store.Carries.delete_ok {s : Store} {m : Catalogue} (h : s.Carries m) (path : String)
    {docs : List StoredDocument} (hall : s.all = .ok docs) :
    (s.delete (some path)).1 = .ok (docs.any fun doc => doc.path == path) ∧
      (s.delete (some path)).2.all = .ok (docs.filter fun doc => doc.path != path) := by
  have hpresent := h.wellFormed.present
  rw [Store.all_eq h.isOpen hpresent] at hall
  obtain rfl := Except.ok.inj hall
  have hdelete : s.delete (some path) = (.ok _, { s with tables := s.tables.without path }) :=
    Store.delete_ok_iff.mpr ⟨h.isOpen, h.saved, hpresent, rfl, rfl⟩
  rw [hdelete]
  constructor
  · rw [Tables.any_listed]
    rfl
  · have hopen : ({ s with tables := s.tables.without path } : Store).isOpen := h.isOpen
    rw [Store.all_eq hopen (by simpa using hpresent), Tables.listed_without h.wellFormed]

/-! ## Keys -/

namespace Session

/-- What the key of a path tells of it. A current directory at the root of the project makes the key
    a path to the same file, by which its document is removed. -/
structure Identifies (s : Session) (d : Disk) (path key : String) : Prop where
  unique : ∀ path', s.key d path' = key → (d.absolute path').parts = (d.absolute path).parts
  joined : (d.absolute (Path.join s.project.toString key)).parts = (d.absolute path).parts
  relative : Path.isAbsolute key = false ↔ s.project.parts <+: (d.absolute path).parts
  below : Path.isAbsolute key = false → ".." ∉ Path.components key
  again : s.project.parts = d.here.parts → s.key d key = key
  removes : s.project.parts = d.here.parts → ∀ m docs, s.store.Carries m → s.store.all = .ok docs →
    (s.remove d key).1 = .ok (docs.any fun doc => doc.path == key) ∧
      (s.remove d key).2.store.all = .ok (docs.filter fun doc => doc.path != key)

/-- **Keys identify files.** Whatever the current directory is, and whatever texts name the root of
    the project and a path: paths with one key have the same names, the key joined to the root leads
    back to the path, and it is relative exactly where the path is the root or lies below it, and
    does not go up then. Where the root is the current directory, the key of a key is itself, and
    with it goes the document stored under it and no other. -/
theorem key_identifies {d : Disk} (hd : d.here.Valid) {s : Session} {root : String}
    (hroot : s.project = d.absolute root) (path : String) : s.Identifies d path (s.key d path) := by
  have hvalid (path : String) : (d.absolute path).Valid := Path.Absolute.valid_ofText hd path
  have hproject : s.project.Valid := hroot ▸ hvalid root
  have hback (path : String) : (Path.Absolute.ofText s.project (s.key d path)).parts =
      (d.absolute path).parts := Path.parts_ofText_documentKey s.project (hvalid path)
  have hagain (hsame : s.project.parts = d.here.parts) : s.key d (s.key d path) = s.key d path :=
    Path.documentKey_documentKey hsame (hvalid path)
  constructor
  case unique =>
    intro path' hkey
    rw [← hback path', hkey, hback path]
  case joined => exact (Path.parts_ofText_join hproject d.here _).trans (hback path)
  case relative => exact Path.isAbsolute_documentKey_iff s.project (hvalid path)
  case below =>
    intro _ hmem
    exact (Path.isName_of_mem_documentKey s.project (hvalid path) ".." hmem).notUp rfl
  case again => exact hagain
  case removes =>
    intro hsame m docs hcarries hall
    unfold remove
    rw [hagain hsame]
    exact hcarries.delete_ok (s.key d path) hall

/-- A disk whose current directory is `/src`. -/
def workingDisk : Disk := ⟨.empty, ⟨false, ["src"]⟩⟩

/-- A session at its current directory, with a document under `a.js`. -/
def workingSession : Session where
  settings := default
  store := (Store.fresh ":memory:").writeAll [.upsert (Store.contentDraft "let x")]
  project := workingDisk.absolute "."

set_option maxRecDepth 20000 in
theorem key_identifies_workingSession :
    workingDisk.here.Valid ∧ workingSession.project = workingDisk.absolute "." ∧
      workingSession.key workingDisk "lib/../a.js" = "a.js" ∧
      workingSession.Identifies workingDisk "lib/../a.js" "a.js" ∧
      (workingSession.remove workingDisk "a.js").1 = .ok true := by
  have hd : workingDisk.here.Valid := by
    intro c hc
    rw [List.mem_singleton.mp hc]
    constructor <;> decide
  have hroot : workingSession.project = workingDisk.absolute "." := rfl
  have hkey : workingSession.key workingDisk "lib/../a.js" = "a.js" := by rfl
  have h := key_identifies hd hroot "lib/../a.js"
  rw [hkey] at h
  have hcarries := (Store.carries_fresh ":memory:").writeAll [.upsert (Store.contentDraft "let x")]
  have hall := Store.all_eq hcarries.isOpen hcarries.wellFormed.present
  have hstored : (workingSession.store.tables.listed.any fun doc => doc.path == "a.js") = true := by
    rw [Tables.any_listed]
    rfl
  exact ⟨hd, hroot, hkey, h, (h.removes rfl _ _ hcarries hall).1.trans (congrArg _ hstored)⟩

end Session

end SourceAtlas
