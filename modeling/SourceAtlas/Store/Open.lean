import SourceAtlas.Files.Disk
import SourceAtlas.Store.Fault
import SourceAtlas.Store.File

/-!
# Opening and closing stores

A store is in memory or in a file. What a file holds outlasts the store that is open.

Models the constructor of `ContextStore` with `_init_db`, and `close`. Pragmas and the indexes of
the tables are left out.
-/

namespace SourceAtlas

namespace Store

/-- The location of a store that lies in no file. -/
def memory : String := ":memory:"

/-- The directory that holds what an absolute path names. -/
def directoryOf (p : Path.Absolute) : Path.Absolute := { p with parts := p.parts.dropLast }

/-- The tables of the file that a location names. One that does not exist holds empty ones. -/
def tablesAt (d : Disk) (location : String) : Except OpenFault Tables :=
  match d.place location false with
  | .error _ => .error .cannotOpen
  | .ok place =>
    match d.root.at? place with
    | none => .ok .empty
    | some (.file bytes) => (Tables.ofFile? bytes).elim (.error .notAStore) .ok
    | some _ => .error .cannotOpen

/-- Makes a table anew that is gone. -/
def repaired (t : Tables) : Tables := { t with references := some (t.references.getD []) }

/-- Opens the store at a location. The directories on the way to its file are made. A location
without a name is as good as memory. -/
def openAt (d : Disk) (location : String) : Except StoreError Store × Disk :=
  if location == memory then (.ok (.fresh location), d)
  else
    match d.makeDirectories (directoryOf (d.absolute location)).toString with
    | .error e => (.error (.cannotOpen location (.files e)), d)
    | .ok d =>
      if location == "" then (.ok (.fresh location), d)
      else if location.toList.contains '\x00' then
        (.error (.cannotOpen location (.files ⟨.zeroByte, location⟩)), d)
      else
        match tablesAt d location with
        | .error f => (.error (.cannotOpen location f), d)
        | .ok tables =>
          let tables := repaired tables
          (.ok { fresh location with tables }, d.put location (.file tables.toFile))

/-- Closes a store and keeps its tables in its file, if the file is still there. A transaction that
is under way is given up. -/
def close (d : Disk) (s : Store) : Store × Disk :=
  if !s.isOpen then (s, d)
  else
    let tables := s.saved.getD s.tables
    let closed := { s with isOpen := false, tables, saved := none }
    if s.location == memory || s.location == "" then (closed, d)
    else
      match (tablesAt d s.location).toOption, d.isFile s.location with
      | some _, true => (closed, d.put s.location (.file tables.toFile))
      | _, _ => (closed, d)

end Store

end SourceAtlas
