/-!
# Paths

Paths as texts whose components a slash separates. An absolute path is kept by its components: no
empty one, none that stays or goes up.

`Path.documentKey` models `Indexer.path_key`; the rest stands for the path functions of the standard
library that it and `walk_source_files` use.
-/

namespace SourceAtlas.Path

/-! ## Components -/

/-- Splits characters at slashes. -/
def split : List Char → List (List Char)
  | [] => [[]]
  | c :: cs =>
    match split cs with
    | [] => [[c]]
    | part :: parts => if c == '/' then [] :: part :: parts else (c :: part) :: parts

/-- What a path's parts say, those that say nothing left out. -/
def components (path : String) : List String :=
  ((split path.toList).map String.ofList).filter fun c => c != "" && c != "."

def isAbsolute (path : String) : Bool := path.toList.head? == some '/'

/-! ## Absolute paths -/

/-- An absolute path. `doubled` keeps the two slashes that may begin one. -/
structure Absolute where
  doubled : Bool
  parts : List String
  deriving BEq, DecidableEq, Repr, Inhabited

/-- Follows components from a place whose parts are given last first. -/
def follow (place : List String) : List String → List String
  | [] => place
  | ".." :: rest => follow (place.drop 1) rest
  | c :: rest => follow (c :: place) rest

namespace Absolute

def toString (p : Absolute) : String :=
  (if p.doubled then "//" else "/") ++ "/".intercalate p.parts

/-- The path that a text names from a place. -/
def ofText (here : Absolute) (path : String) : Absolute :=
  if isAbsolute path then
    ⟨(path.toList.takeWhile (· == '/')).length == 2, (follow [] (components path)).reverse⟩
  else ⟨here.doubled, (follow here.parts.reverse (components path)).reverse⟩

/-- What is left of two lists behind the part they share. -/
def dropShared : List String → List String → List String × List String
  | a :: as, b :: bs => if a == b then dropShared as bs else (a :: as, b :: bs)
  | as, bs => (as, bs)

/-- The way from `root` to a path, as components. -/
def wayFrom (root p : Absolute) : List String :=
  let (up, down) := dropShared root.parts p.parts
  up.map (fun _ => "..") ++ down

/-- The way from `root` to a path as a text: a dot where there is nowhere to go. -/
def relativeText (root p : Absolute) : String :=
  match root.wayFrom p with
  | [] => "."
  | way => "/".intercalate way

end Absolute

/-- Whether a relative path begins by going up. -/
def goesUp (path : String) : Bool := path == ".." || "../".toList.isPrefixOf path.toList

/-- The key of a document: the way from the project's root to its path, or the path itself where
that way goes up. -/
def documentKey (root p : Absolute) : String :=
  let way := root.relativeText p
  if goesUp way then p.toString else way

/-! ## Names -/

/-- The last component of a path: what follows its last slash. -/
def fileName (path : String) : List Char :=
  (path.toList.reverse.takeWhile (· != '/')).reverse

/-- The suffix of a file name: its last dot and what follows, where dots at its start do not
count. -/
def suffix (path : String) : String :=
  let stem := (fileName path).dropWhile (· == '.')
  let tail := (stem.reverse.takeWhile (· != '.')).reverse
  if tail.length < stem.length then String.ofList ('.' :: tail) else ""

end SourceAtlas.Path
