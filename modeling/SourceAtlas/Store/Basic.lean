import SourceAtlas.Reference.Basic
import SourceAtlas.Store.Cell
import SourceAtlas.Vector.Single

/-!
# The tables of a store

A store keeps two tables: one row for each document, and one row for each reference that a document
owns. Rows stand in the order in which they were written.

Models the tables `documents` and `variable_refs`, and the classes `Document`, `StoredDocument` and
`VariableReference` as they are read back. The time of the last write (`last_updated`) is left out.
-/

namespace SourceAtlas

/-! ## Rows -/

/-- A document as it is stored: its vector as bytes, with the number of elements beside it. -/
structure DocumentRow where
  path : String
  content : String
  vector : List UInt8
  dimensions : Nat
  hash : String
  language : String
  deriving BEq, DecidableEq, Repr, Inhabited

/-- A reference as it is stored. -/
structure ReferenceRow where
  id : Nat
  path : String
  name : Cell
  kind : RefKind
  line : Int
  source : Option Cell
  deriving BEq, DecidableEq, Repr, Inhabited

/-- Both tables. `references` is absent while its table is gone, and `nextId` numbers the next
reference; no number is given twice. -/
structure Tables where
  documents : List DocumentRow
  references : Option (List ReferenceRow)
  nextId : Nat
  deriving BEq, DecidableEq, Repr, Inhabited

def Tables.empty : Tables := ⟨[], some [], 1⟩

/-! ## Stores -/

/-- A store at a location. While a transaction is under way, `saved` holds the tables as they were
at its beginning. -/
structure Store where
  location : String
  isOpen : Bool
  tables : Tables
  saved : Option Tables
  deriving BEq, DecidableEq, Repr, Inhabited

/-- A store without rows. -/
def Store.fresh (location : String) : Store := ⟨location, true, .empty, none⟩

/-! ## Documents as they are read -/

/-- A reference of a stored document. -/
structure StoredReference where
  path : String
  name : Cell
  kind : RefKind
  line : Int
  source : Option Cell
  deriving BEq, DecidableEq, Repr, Inhabited

def ReferenceRow.view (r : ReferenceRow) : StoredReference :=
  ⟨r.path, r.name, r.kind, r.line, r.source⟩

/-- A stored document with the references that it owns. -/
structure StoredDocument where
  path : String
  content : String
  vector : List Single
  hash : String
  language : String
  references : List StoredReference
  deriving BEq, DecidableEq, Repr, Inhabited

end SourceAtlas
