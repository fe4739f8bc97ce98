import SourceAtlas.Reference.Basic
import SourceAtlas.Store.Cell

/-!
# Occurrences by name

The references of a document grouped by name, for display.

Models `aggregate_references`.
-/

namespace SourceAtlas

/-- A reference without its name. -/
structure Occurrence where
  line : Int
  kind : RefKind
  source : Option Cell
  deriving BEq, DecidableEq, Repr, Inhabited

/-- References whose names are texts, as they are read from files, have the cells of these names. -/
instance {α : Type} : Coe (α → String × Occurrence) (α → Cell × Occurrence) :=
  ⟨fun f a => (.text (f a).1, (f a).2)⟩

/-- Occurrences under their names, in the order in which the names are first seen. -/
abbrev Variables := List (Cell × List Occurrence)

namespace Variables

/-- Adds an occurrence under a name, behind those that are there. -/
def add (name : Cell) (o : Occurrence) : Variables → Variables
  | [] => [(name, [o])]
  | (n, os) :: rest => if n == name then (n, os ++ [o]) :: rest else (n, os) :: add name o rest

/-- How often a name occurs. -/
def count (name : Cell) (refs : List (Cell × Occurrence)) : Nat :=
  (refs.filter fun r => r.1 == name).length

/-- Groups named occurrences. Empty and ignored names are left out, and names that occur fewer
than `least` times. -/
def aggregate (refs : List (Cell × Occurrence)) (ignored : List String) (least : Int) :
    Variables :=
  let kept := refs.filter fun r => !r.1.isEmpty && !(ignored.map Cell.text).contains r.1
  let common := kept.filter fun r => least ≤ count r.1 kept
  common.foldl (fun groups r => groups.add r.1 r.2) []

end Variables

end SourceAtlas
