import SourceAtlas.Store.Basic

/-!
# Stores changed from outside

What another user of a store's database can do to it behind the back of its operations.

Stands for what tests do through a connection of their own; nothing of the package does it.
-/

namespace SourceAtlas.Store

/-- Leaves a transaction under way. -/
def beginTransaction (s : Store) : Store := { s with saved := s.tables }

/-- Takes the table of references away. -/
def dropReferenceTable (s : Store) : Store :=
  { s with tables := { s.tables with references := none } }

/-- Writes another vector over the one that is stored under a path. The number of elements that was
noted stays. -/
def overwriteVector (s : Store) (path : String) (vector : List Single) : Store :=
  let changed (d : DocumentRow) : DocumentRow :=
    if d.path == path then { d with vector := encodeVector vector } else d
  { s with tables := { s.tables with documents := s.tables.documents.map changed } }

end SourceAtlas.Store
