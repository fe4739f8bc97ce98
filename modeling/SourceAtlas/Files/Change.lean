import SourceAtlas.Files.Tree

/-!
# Changes of a file tree

What has to be made and written to turn one file tree into another. Nothing is ever taken away.
-/

namespace SourceAtlas

/-- A directory to make or a file to write, by the names on the way from the root. -/
inductive Change where
  | directory (place : List String)
  | file (place : List String) (content : List UInt8)
  deriving BEq, DecidableEq, Repr

namespace Entry

/-- Whether an entry is a file with this content. -/
def holdsBytes (bytes : List UInt8) : Entry → Bool
  | file content => content == bytes
  | _ => false

mutual

/-- What turns the entry at a place, if there is one, into a new one. -/
def changes (place : List String) (old : Option Entry) (new : Entry) : List Change :=
  match new with
  | .file bytes => if old.any (holdsBytes bytes) then [] else [.file place bytes]
  | .directory _ _ es =>
    (if old.any isDirectory then [] else [.directory place]) ++
      changesBelow place ((old.map entries).getD []) es
  | .locked | .link _ => []

/-- What turns the entries of a directory into new ones. -/
def changesBelow (place : List String) (old new : List (String × Entry)) : List Change :=
  match new with
  | [] => []
  | (name, e) :: es =>
    changes (place ++ [name]) (old.lookup name) e ++ changesBelow place old es

end

end Entry

/-- What turns one tree into another. -/
def Change.between (old new : Entry) : List Change := Entry.changes [] (some old) new

end SourceAtlas
