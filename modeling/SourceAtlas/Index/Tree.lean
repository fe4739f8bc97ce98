import SourceAtlas.Files.Walk
import SourceAtlas.Index.File

/-!
# Indexing a tree

Indexes every file that a walk finds, one after another. A file that fails is counted and the run
goes on; only when the store itself fails does it end.

Models `Indexer.run`, `Indexer._handle`, `Indexer._fail`, `FileFailure` and `IndexSummary`. The time
that a run took (`elapsed_seconds`) and log records are left out.
-/

namespace SourceAtlas

/-! ## Failures -/

/-- The kinds under which failed files are reported. -/
inductive FailureKind where
  | embedding
  | store
  | io
  | index
  | unexpected
  deriving BEq, DecidableEq, Repr

namespace FailureKind

def toString : FailureKind → String
  | embedding => "embedding"
  | store => "store"
  | io => "io"
  | index => "index"
  | unexpected => "unexpected"

/-- The kind of a family of faults; none where the store itself fails. -/
def ofFamily? : FaultFamily → Option FailureKind
  | .embedding => some embedding
  | .store => some store
  | .unavailable => none
  | .io => some io
  | .index => some index
  | .other => some unexpected

end FailureKind

/-- A file that failed. -/
structure FileFailure where
  path : String
  error : String
  kind : FailureKind
  deriving BEq, DecidableEq, Repr

/-! ## Tallies -/

/-- What has happened to the files of a run so far, the last first. `handled` holds the keys of all
files that were counted. -/
structure Tally where
  processed : Nat
  skipped : Nat
  failures : List FileFailure
  handled : List String
  deriving BEq, DecidableEq, Repr, Inhabited

namespace Tally

def empty : Tally := ⟨0, 0, [], []⟩

def failed (t : Tally) : Nat := t.failures.length

def total (t : Tally) : Nat := t.processed + t.skipped + t.failed

/-- Counts a file. A fault of the store itself is not counted but ends the run. -/
def count (t : Tally) (key : String) (result : Except IndexFault Bool) : Except IndexFault Tally :=
  let t := { t with handled := key :: t.handled }
  match result with
  | .ok true => .ok { t with processed := t.processed + 1 }
  | .ok false => .ok { t with skipped := t.skipped + 1 }
  | .error f =>
    match FailureKind.ofFamily? f.family with
    | some kind => .ok { t with failures := ⟨key, f.message, kind⟩ :: t.failures }
    | none => .error f

/-- The failures in the order of their paths. -/
def sortedFailures (t : Tally) : List FileFailure :=
  t.failures.reverse.mergeSort fun a b => decide (a.path ≤ b.path)

end Tally

/-! ## Runs -/

/-- What came of indexing a tree. `files` holds the paths that the walk found, and `ended` the fault
that ended the run before all were counted. -/
structure TreeRun where
  findings : List Finding
  files : List String
  asked : List String
  unparsed : List ParseFailure
  tally : Tally
  ended : Option IndexFault
  store : Store
  deriving Inhabited

/-- What is told of a file that was counted: how many there are so far, out of how many, and its
key. -/
structure Progress where
  done : Nat
  total : Nat
  key : String
  deriving BEq, DecidableEq, Repr

namespace TreeRun

/-- What is told in the course of a run. -/
def progress (run : TreeRun) : List Progress :=
  run.tally.handled.reverse.zipIdx.map fun (key, i) => ⟨i + 1, run.files.length, key⟩

/-- Adds what came of a file. -/
def add (run : TreeRun) (r : FileRun) : TreeRun :=
  let run := { run with
    asked := run.asked ++ r.asked
    unparsed := run.unparsed ++ r.unparsed.toList
    store := r.store }
  match run.tally.count r.key r.result with
  | .ok tally => { run with tally }
  | .error f => { run with ended := some f }

end TreeRun

/-- Indexes files one after another until the store fails. -/
def indexFiles (d : Disk) (embed : Embedder) (project : Path.Absolute) (force : Bool)
    (run : TreeRun) : List String → TreeRun
  | [] => run
  | path :: paths =>
    let run := run.add (indexFile d embed run.store project force (d.absolute path))
    if run.ended.isSome then run else indexFiles d embed project force run paths

/-- What a finding ends a run with: a directory that the operating system is never asked about. -/
def Finding.fault? : Finding → Option IndexFault
  | .unlisted e => if e.family == .io then none else some (.file e)
  | .file _ | .unclear _ => none

/-- Indexes every file that a walk finds below a path. -/
def indexTree (d : Disk) (embed : Embedder) (s : Store) (project : Path.Absolute)
    (rule : WalkRule) (force : Bool) (path : String) : TreeRun :=
  let findings := d.walk rule path
  let files := d.walkedFiles rule path
  let ended := findings.findSome? Finding.fault?
  indexFiles d embed project force ⟨findings, files, [], [], .empty, ended, s⟩ files

end SourceAtlas
