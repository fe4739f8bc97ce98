import SourceAtlas.Fault.Family
import SourceAtlas.Path.Basic
import SourceAtlas.Text.Quoted

/-!
# File trees

Files, directories and links as a tree. A directory names its entries once each, in no order that
matters. The tree knows what may be read: the content of a file, the names of a directory, and,
which is another thing, what those names lead to.

Stands for the file system as `walk_source_files`, `read_source` and `_find_config_file` see it.
Times, owners and sizes are left out.
-/

namespace SourceAtlas

/-- What a name in a directory stands for. A locked file is one that cannot be read. A directory
that can be read tells its names, one that can be searched lets paths go through it. -/
inductive Entry where
  | file (content : List UInt8)
  | locked
  | directory (readable searchable : Bool) (entries : List (String × Entry))
  | link (target : String)
  deriving Inhabited

namespace Entry

def empty : Entry := directory true true []

def isDirectory : Entry → Bool
  | directory _ _ _ => true
  | _ => false

def isFile : Entry → Bool
  | file _ | locked => true
  | _ => false

def isSearchable : Entry → Bool
  | directory _ searchable _ => searchable
  | _ => false

/-- The entries of a directory; anything else has none. -/
def entries : Entry → List (String × Entry)
  | directory _ _ es => es
  | _ => []

/-- A directory with other entries; anything else makes way for one. -/
def withEntries (e : Entry) (es : List (String × Entry)) : Entry :=
  match e with
  | directory readable searchable _ => directory readable searchable es
  | _ => directory true true es

@[simp] theorem entries_withEntries (e : Entry) (es : List (String × Entry)) :
    (e.withEntries es).entries = es := by
  cases e <;> rfl

/-- The entry at the end of a way of names. No link is followed. -/
def at? (e : Entry) : List String → Option Entry
  | [] => some e
  | name :: names => (e.entries.lookup name).bind fun child => child.at? names

/-- Puts an entry under a name, in place of the one that is there. -/
def putEntry (name : String) (e : Entry) : List (String × Entry) → List (String × Entry)
  | [] => [(name, e)]
  | (n, old) :: es => if n == name then (n, e) :: es else (n, old) :: putEntry name e es

/-- Puts an entry at the end of a way of names. Where the way does not exist it is made of
directories. -/
def put (e : Entry) (names : List String) (new : Entry) : Entry :=
  match names with
  | [] => new
  | name :: names =>
    let child := (e.entries.lookup name).getD empty
    e.withEntries (putEntry name (child.put names new) e.entries)

/-- Takes away the entry at the end of a way of names. -/
def remove (e : Entry) (names : List String) : Entry :=
  match names, e with
  | [name], directory _ _ es => e.withEntries (es.filter fun e => e.1 != name)
  | name :: names, directory _ _ es =>
    match es.lookup name with
    | some child => e.withEntries (putEntry name (child.remove names) es)
    | none => e
  | _, _ => e

end Entry

/-! ## Faults -/

/-- Why a path leads nowhere or to the wrong thing. -/
inductive FileFault where
  | absent
  | denied
  | alreadyThere
  | notDirectory
  | isDirectory
  | nameTooLong
  | tooManyLinks
  | zeroByte
  deriving BEq, DecidableEq, Repr

namespace FileFault

/-- The number and the text that the operating system has for a fault. A path with a zero byte
never reaches it. -/
def system? : FileFault → Option (Nat × String)
  | absent => some (2, "No such file or directory")
  | denied => some (13, "Permission denied")
  | alreadyThere => some (17, "File exists")
  | notDirectory => some (20, "Not a directory")
  | isDirectory => some (21, "Is a directory")
  | nameTooLong => some (36, "File name too long")
  | tooManyLinks => some (40, "Too many levels of symbolic links")
  | zeroByte => none

end FileFault

/-- A path that cannot be used, and why. -/
structure FileError where
  fault : FileFault
  path : String
  deriving BEq, DecidableEq, Repr

namespace FileError

def message (e : FileError) : String :=
  match e.fault.system? with
  | some (number, text) => s!"[Errno {number}] {text}: {Text.quoted e.path}"
  | none => "embedded null byte"

def family (e : FileError) : FaultFamily := if e.fault.system?.isSome then .io else .other

end FileError

end SourceAtlas
