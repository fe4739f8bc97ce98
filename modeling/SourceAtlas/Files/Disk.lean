import SourceAtlas.Files.Tree
import SourceAtlas.Text.Utf8

/-!
# Disks

A file tree with a current directory. Paths are followed name by name: a link leads where its
target leads from the directory that holds it, and a way through anything but a directory fails, as
does one through a directory that cannot be searched. Of the rights to a tree only those to read it
are told; whatever is written here may be.

Stands for the calls of the operating system that open, list and make what a path names.
-/

namespace SourceAtlas

/-- A file tree and the directory that relative paths start from. -/
structure Disk where
  root : Entry
  here : Path.Absolute
  deriving Inhabited

namespace Disk

/-! ## Following paths -/

/-- More links than this on one way are taken for a circle. -/
def maxLinks : Nat := 40

/-- A name with more bytes than this cannot exist. -/
def maxNameBytes : Nat := 255

/-- A path with this many bytes is not followed. -/
def maxPathBytes : Nat := 4096

/-- Follows names from a place, given last name first. The place that they lead to has an entry,
or only its last name is missing. With `keepLast` a link at the very end is the place itself. -/
def follow (root : Entry) (keepLast : Bool) (links : Nat) (place names : List String) :
    Except FileFault (List String) :=
  match names with
  | [] => .ok place
  | name :: rest =>
    match root.at? place.reverse with
    | some (.directory _ searchable es) =>
      -- Nothing is looked up where two slashes stand together, or one at the end.
      if name == "" then follow root keepLast links place rest
      else if !searchable then .error .denied
      else if name == "." then follow root keepLast links place rest
      else if name == ".." then follow root keepLast links (place.drop 1) rest
      else if maxNameBytes < name.utf8ByteSize then .error .nameTooLong
      else
        match es.lookup name with
        | none => if rest.isEmpty then .ok (name :: place) else .error .absent
        | some (.link target) =>
          if keepLast && rest.isEmpty then .ok (name :: place)
          else
            match links with
            | 0 => .error .tooManyLinks
            | links + 1 =>
              if target == "" then .error .absent
              else
                let way := (Path.split target.toList).map String.ofList
                let start := if Path.isAbsolute target then [] else place
                follow root keepLast links start (way ++ rest)
        | some _ => follow root keepLast links (name :: place) rest
    | _ => .error .notDirectory
termination_by (links, names.length)

/-- The names from the root to the place that a path leads to. -/
def place (d : Disk) (path : String) (keepLast : Bool) : Except FileFault (List String) :=
  if path.toList.contains '\x00' then .error .zeroByte
  else if path == "" then .error .absent
  else if maxPathBytes ≤ path.utf8ByteSize then .error .nameTooLong
  else
    let start := if Path.isAbsolute path then [] else d.here.parts.reverse
    (follow d.root keepLast maxLinks start ((Path.split path.toList).map String.ofList)).map
      List.reverse

/-- What a path leads to. -/
def entry (d : Disk) (path : String) : Except FileFault Entry := do
  match d.root.at? (← d.place path false) with
  | some e => .ok e
  | none => .error .absent

def holds (d : Disk) (path : String) : Bool := (d.entry path).toOption.isSome

def isFile (d : Disk) (path : String) : Bool := (d.entry path).toOption.any Entry.isFile

def isDirectory (d : Disk) (path : String) : Bool := (d.entry path).toOption.any Entry.isDirectory

/-- The path as an absolute one. -/
def absolute (d : Disk) (path : String) : Path.Absolute := .ofText d.here path

/-! ## Reading -/

/-- The bytes of a file. -/
def read (d : Disk) (path : String) : Except FileError (List UInt8) :=
  match d.entry path with
  | .ok (.file bytes) => .ok bytes
  | .ok .locked => .error ⟨.denied, path⟩
  | .ok (.directory _ _ _) => .error ⟨.isDirectory, path⟩
  | .ok (.link _) => .error ⟨.tooManyLinks, path⟩
  | .error fault => .error ⟨fault, path⟩

/-! ## Writing -/

/-- Makes a directory. What holds it must exist and it must not. -/
def makeDirectory (d : Disk) (path : String) : Except FileError Disk :=
  let bare := String.ofList (path.toList.reverse.dropWhile (· == '/')).reverse
  match d.place (if bare == "" then path else bare) true with
  | .error fault => .error ⟨fault, path⟩
  | .ok place =>
    if (d.root.at? place).isSome then .error ⟨.alreadyThere, path⟩
    else .ok { d with root := d.root.put place .empty }

/-- A path cut before its last name, and that name. -/
def cutLast (path : String) : String × String :=
  let last := Path.fileName path
  let rest := path.toList.take (path.length - last.length)
  let bare := (rest.reverse.dropWhile (· == '/')).reverse
  (String.ofList (if bare.isEmpty then rest else bare), String.ofList last)

/-- A path cut before its last name, where slashes at its end do not count. -/
def cutLastName (path : String) : String × String :=
  let (head, last) := cutLast path
  if last == "" then cutLast head else (head, last)

/-- Makes a directory and those on the way to it. One that exists already will do. -/
def makeDirectories (d : Disk) (path : String) : Except FileError Disk :=
  go d (path.length + 1) path
where
  go (d : Disk) : Nat → String → Except FileError Disk
    | 0, _ => .ok d
    | fuel + 1, path =>
      let (head, last) := cutLastName path
      let above : Except FileError (Disk × Bool) :=
        if head != "" && last != "" && !d.holds head then
          match go d fuel head with
          | .ok d => .ok (d, last == ".")
          | .error e => if e.fault == .alreadyThere then .ok (d, last == ".") else .error e
        else .ok (d, false)
      match above with
      | .error e => .error e
      | .ok (d, true) => .ok d
      | .ok (d, false) =>
        match d.makeDirectory path with
        | .ok d => .ok d
        | .error e => if e.fault != .zeroByte && d.isDirectory path then .ok d else .error e

/-- Puts an entry where a path leads, with the directories on the way to it. -/
def put (d : Disk) (path : String) (e : Entry) : Disk :=
  match d.place path e.isFile.not with
  | .ok place => { d with root := d.root.put place e }
  | .error _ => { d with root := d.root.put (d.absolute path).parts e }

/-- Takes away the entry that a path names. -/
def remove (d : Disk) (path : String) : Disk :=
  match d.place path true with
  | .ok place => { d with root := d.root.remove place }
  | .error _ => d

end Disk

end SourceAtlas
