import SourceAtlas.Store.Fault

/-!
# Reading a store

The views of a store: its documents in the order of their paths, each with its references in the
order of their lines, and what can be asked about both.

Models the reading methods of `ContextStore`: `all`, `get`, `content_hash` (`hash`),
`find_references` (`find`), `count`, `dimensions` and `stats` (`summary`), with `_read`,
`_row_to_document` and `_row_to_reference`.
-/

namespace SourceAtlas

/-! ## Order -/

/-- References by path, by line, and then as they were written. -/
def ReferenceRow.le (a b : ReferenceRow) : Bool :=
  a.path < b.path ||
    (a.path == b.path && (a.line < b.line || (a.line == b.line && a.id ≤ b.id)))

/-- Documents by path. -/
def DocumentRow.le (a b : DocumentRow) : Bool := decide (a.path ≤ b.path)

namespace Tables

/-- All references in order. -/
def sortedReferences (rows : List ReferenceRow) : List ReferenceRow :=
  rows.mergeSort ReferenceRow.le

/-- A document with its references out of all of them. -/
def document (rows : List ReferenceRow) (d : DocumentRow) : StoredDocument :=
  { path := d.path
    content := d.content
    vector := decodeVector d.vector
    hash := d.hash
    language := d.language
    references := ((sortedReferences rows).filter fun r => r.path == d.path).map ReferenceRow.view }

/-- The document under a path. -/
def row? (t : Tables) (path : String) : Option DocumentRow :=
  t.documents.find? fun d => d.path == path

/-- The number of elements of the first vector. -/
def dimensions (t : Tables) : Option Nat := t.documents.head?.map DocumentRow.dimensions

end Tables

/-! ## Views -/

/-- Counts of what a store holds. -/
structure StoreSummary where
  location : String
  documents : Nat
  references : Nat
  byKind : List (RefKind × Nat)
  dimensions : Option Nat
  deriving BEq, DecidableEq, Repr

namespace Store

/-- The tables of an open store. -/
def readable (s : Store) : Except StoreError Tables :=
  if s.isOpen then .ok s.tables else .error (.closed s.location)

def referencesOf (t : Tables) : Except StoreError (List ReferenceRow) :=
  t.references.elim (.error .missingTable) .ok

/-- All documents in the order of their paths. -/
def all (s : Store) : Except StoreError (List StoredDocument) := do
  let t ← s.readable
  let rows ← referencesOf t
  return (t.documents.mergeSort DocumentRow.le).map (Tables.document rows)

/-- The document under a path. Its references are asked for only if there is one. -/
def get (s : Store) (path : String) : Except StoreError (Option StoredDocument) := do
  let t ← s.readable
  match t.row? path with
  | none => return none
  | some d => return some (Tables.document (← referencesOf t) d)

/-- The hash under a path. -/
def hash (s : Store) (path : String) : Except StoreError (Option String) := do
  return ((← s.readable).row? path).map DocumentRow.hash

/-- All references to a name, of one kind or of any. -/
def find (s : Store) (name : String) (kind : Option RefKind) :
    Except StoreError (List StoredReference) := do
  let rows ← referencesOf (← s.readable)
  let wanted (r : ReferenceRow) : Bool := r.name == .text name && kind.all (· == r.kind)
  return ((Tables.sortedReferences rows).filter wanted).map ReferenceRow.view

def count (s : Store) : Except StoreError Nat := do
  return (← s.readable).documents.length

/-- The number of elements that the stored vectors have. -/
def dimensions (s : Store) : Except StoreError (Option Nat) := do
  return (← s.readable).dimensions

/-- How many references are of a kind. -/
def countKind (rows : List ReferenceRow) (k : RefKind) : Nat :=
  (rows.filter fun r => r.kind == k).length

def summary (s : Store) : Except StoreError StoreSummary := do
  let t ← s.readable
  let rows ← referencesOf t
  let byKind := (RefKind.all.map fun k => (k, countKind rows k)).filter fun e => e.2 != 0
  return ⟨s.location, t.documents.length, rows.length, byKind, t.dimensions⟩

end Store

end SourceAtlas
