import SourceAtlas.Files.Disk
import SourceAtlas.Text.Lower

/-!
# The walk of a directory

Finds the files to index below a directory: first those that the directory itself holds, by name,
then what each of its directories holds, by name. A link to a file counts as a file, a link to a
directory as nothing, and some directories are left out by name.

Models `walk_source_files`: `Walking` holds its stack, and `Walking.round` takes one directory from
it. Its warnings are kept as findings.
-/

namespace SourceAtlas

/-- What a walk comes across: a file to index, a directory that cannot be listed, or an entry that
cannot be told to be a file. -/
inductive Finding where
  | file (path : String)
  | unlisted (e : FileError)
  | unclear (e : FileError)
  deriving BEq, DecidableEq, Repr

/-- The file that is found, if it is one. -/
def Finding.file? : Finding → Option String
  | file path => some path
  | _ => none

/-- What a walk looks for: suffixes in lower case, and directories to leave out. -/
structure WalkRule where
  suffixes : List String
  ignored : List String
  deriving Inhabited

namespace WalkRule

def ofLists (extensions ignored : List String) : WalkRule := ⟨extensions.map Text.lower, ignored⟩

def wants (rule : WalkRule) (name : String) : Bool :=
  rule.suffixes.contains (Text.lower (Path.suffix name))

end WalkRule

/-- A path one name further. -/
def Path.Absolute.child (p : Path.Absolute) (name : String) : Path.Absolute :=
  { p with parts := p.parts ++ [name] }

namespace Entry

mutual

/-- How many entries a tree has, itself among them. -/
def size : Entry → Nat
  | file _ | locked | link _ => 1
  | directory _ _ es => sizeOfAll es + 1

/-- How many entries trees have together. -/
def sizeOfAll : List (String × Entry) → Nat
  | [] => 0
  | (_, e) :: es => e.size + sizeOfAll es

end

theorem size_pos (e : Entry) : 0 < e.size := by
  cases e <;> simp [size]

/-- What can be opened of an entry by a path through the directory that holds it: nothing, unless
the directory can be searched. -/
def behind (searchable : Bool) (e : Entry) : Entry :=
  if searchable then e else directory false false []

theorem size_behind_le (searchable : Bool) (e : Entry) : (e.behind searchable).size ≤ e.size := by
  cases searchable
  · exact e.size_pos
  · exact Nat.le_refl _

end Entry

/-- Sorts what has names by them. -/
def sortByName {α : Type} (xs : List (String × α)) : List (String × α) :=
  xs.mergeSort fun a b => decide (a.1 ≤ b.1)

namespace Disk

/-- The finding at an entry that is no directory. -/
def ownFinding (d : Disk) (rule : WalkRule) (place : Path.Absolute) (name : String) :
    Entry → List Finding
  | .directory _ _ _ => []
  | .link _ =>
    let path := (place.child name).toString
    match d.entry path with
    | .ok e => if e.isFile && rule.wants name then [.file path] else []
    | .error .absent => []
    | .error fault => [.unclear ⟨fault, path⟩]
  | _ => if rule.wants name then [.file (place.child name).toString] else []

/-- Why an entry at a place cannot be listed, if it cannot. -/
def unlistable? (place : Path.Absolute) : Entry → Option FileFault
  | .directory readable _ _ =>
    if maxPathBytes ≤ place.toString.utf8ByteSize then some .nameTooLong
    else if readable then none
    else some .denied
  | _ => some .notDirectory

/-- The directories among the entries of one at a place that are not left out, each with its place
and as it can be opened there. -/
def directoriesAt (rule : WalkRule) (place : Path.Absolute) (searchable : Bool)
    (es : List (String × Entry)) : List (Path.Absolute × Entry) :=
  (es.filter fun e => e.2.isDirectory && !rule.ignored.contains e.1).map fun e =>
    (place.child e.1, e.2.behind searchable)

end Disk

/-- A walk under way: the directories that it has yet to list, the next one first, and what it has
found, the last first. -/
structure Walking where
  ahead : List (Path.Absolute × Entry)
  found : List Finding
  deriving Inhabited

namespace Walking

/-- Lists the next directory. Its own directories come before all others, the first of them next. -/
def round (d : Disk) (rule : WalkRule) (w : Walking) : Walking :=
  match w.ahead with
  | [] => w
  | (place, e) :: ahead =>
    match Disk.unlistable? place e with
    | some fault => ⟨ahead, .unlisted ⟨fault, place.toString⟩ :: w.found⟩
    | none =>
      let es := sortByName e.entries
      ⟨Disk.directoriesAt rule place e.isSearchable es ++ ahead,
        (es.flatMap fun e => d.ownFinding rule place e.1 e.2).reverse ++ w.found⟩

/-- How many entries there are in trees at places. -/
def weightOf : List (Path.Absolute × Entry) → Nat
  | [] => 0
  | (_, e) :: ahead => e.size + weightOf ahead

/-- How many entries there are in the trees that are ahead. -/
def weight (w : Walking) : Nat := weightOf w.ahead

theorem weightOf_append (as bs : List (Path.Absolute × Entry)) :
    weightOf (as ++ bs) = weightOf as + weightOf bs := by
  induction as with
  | nil => exact (Nat.zero_add _).symm
  | cons a as ih => rw [List.cons_append, weightOf, weightOf, ih, Nat.add_assoc]

theorem weightOf_perm {as bs : List (Path.Absolute × Entry)} (h : as.Perm bs) :
    weightOf as = weightOf bs := by
  induction h with
  | nil => rfl
  | cons a _ ih => rw [weightOf, weightOf, ih]
  | swap a b as => exact Nat.add_left_comm _ _ _
  | trans _ _ ih ih' => exact ih.trans ih'

theorem weightOf_directoriesAt_le (rule : WalkRule) (place : Path.Absolute) (searchable : Bool)
    (es : List (String × Entry)) :
    weightOf (Disk.directoriesAt rule place searchable es) ≤ Entry.sizeOfAll es := by
  unfold Disk.directoriesAt
  induction es with
  | nil => exact Nat.zero_le _
  | cons e es ih =>
    rw [List.filter_cons, Entry.sizeOfAll]
    split
    · exact Nat.add_le_add (Entry.size_behind_le _ _) ih
    · exact Nat.le_add_left_of_le ih

/-- What a directory puts ahead is less than itself. -/
theorem weight_round_lt (d : Disk) (rule : WalkRule) {w : Walking} (h : w.ahead ≠ []) :
    (w.round d rule).weight < w.weight := by
  obtain ⟨ahead, found⟩ := w
  cases ahead with
  | nil => exact absurd rfl h
  | cons a ahead =>
    obtain ⟨place, e⟩ := a
    simp only [round, weight, weightOf]
    cases hl : Disk.unlistable? place e with
    | some fault => exact Nat.lt_add_of_pos_left e.size_pos
    | none =>
      cases e with
      | file | locked | link => cases hl
      | directory readable searchable es =>
        have hperm : (Disk.directoriesAt rule place searchable (sortByName es)).Perm
            (Disk.directoriesAt rule place searchable es) :=
          ((List.mergeSort_perm _ _).filter _).map _
        have hle := weightOf_directoriesAt_le rule place searchable es
        simp only [Entry.entries, Entry.isSearchable, Entry.size, weightOf_append,
          weightOf_perm hperm]
        omega

/-- Lists directories until none is ahead, and answers what was found on the way. -/
def finish (d : Disk) (rule : WalkRule) (w : Walking) : List Finding :=
  if w.ahead = [] then w.found.reverse else finish d rule (w.round d rule)
termination_by w.weight
decreasing_by exact weight_round_lt d rule ‹_›

end Walking

namespace Disk

/-- The walk of the directory that a path leads to. -/
def walk (d : Disk) (rule : WalkRule) (path : String) : List Finding :=
  let place := d.absolute path
  match d.entry place.toString with
  | .ok e => Walking.finish d rule ⟨[(place, e)], []⟩
  | .error fault => [.unlisted ⟨fault, place.toString⟩]

/-- The files that a walk finds, in its order. -/
def walkedFiles (d : Disk) (rule : WalkRule) (path : String) : List String :=
  (d.walk rule path).filterMap Finding.file?

end Disk

end SourceAtlas
