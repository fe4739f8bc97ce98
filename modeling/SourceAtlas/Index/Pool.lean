import SourceAtlas.Index.Tree

/-!
# Runs with workers

Workers prepare the files of a run side by side, each at its own time, while what they have prepared
is written one file after another. A schedule says in which order all this happens.

Models the thread pool of `Indexer.run`: `_prepare` is submitted for every file, and `_handle` takes
what is done, in whatever order it gets done.
-/

namespace SourceAtlas

/-- What can happen next in a run: a file is prepared, or what was prepared of it is handled. -/
inductive Move where
  | prepare (file : String)
  | handle (file : String)
  deriving BEq, DecidableEq, Repr

/-- The files that moves handle, in their order. -/
def Move.order (moves : List Move) : List String :=
  moves.filterMap fun
    | .prepare _ => none
    | .handle file => some file

/-- The moves of one worker, who hands over each file before taking the next. -/
def Move.oneByOne (files : List String) : List Move :=
  files.flatMap fun file => [.prepare file, .handle file]

/-- A schedule for files: each of them is handled once, at any time after it was prepared. -/
structure IsSchedule (files : List String) (moves : List Move) : Prop where
  complete : (Move.order moves).Perm files
  prepared : ∀ before file after, moves = before ++ .handle file :: after →
    .prepare file ∈ before

/-- A run with workers. `ready` holds what was prepared of files, and `handled` what came of those
that were handled, in their order. -/
structure Pool where
  ready : String → Option Preparation
  handled : List (String × Except IndexFault Bool)
  run : TreeRun

/-- Writes what was prepared to a store. -/
def Preparation.finish (p : Preparation) (s : Store) : FileRun :=
  let (result, store) := p.write s
  ⟨p.key, p.asked, p.unparsed, result, store⟩

namespace Pool

/-- Before anything has happened. -/
def start (d : Disk) (s : Store) (rule : WalkRule) (path : String) : Pool :=
  let findings := d.walk rule path
  let files := d.walkedFiles rule path
  let ended := findings.findSome? Finding.fault?
  ⟨fun _ => none, [], ⟨findings, files, [], [], .empty, ended, s⟩⟩

/-- A move. A file is prepared with the store as it is at that moment. Nothing more is handled once
the run has ended. -/
def step (d : Disk) (embed : Embedder) (project : Path.Absolute) (force : Bool) (w : Pool) :
    Move → Pool
  | .prepare file =>
    let p := prepare d embed w.run.store project force (d.absolute file)
    { w with ready := fun f => if f == file then some p else w.ready f }
  | .handle file =>
    match w.run.ended, w.ready file with
    | none, some p =>
      let r := p.finish w.run.store
      { w with handled := w.handled ++ [(file, r.result)], run := w.run.add r }
    | _, _ => w

/-- The run after moves. -/
def after (d : Disk) (embed : Embedder) (project : Path.Absolute) (force : Bool) (w : Pool)
    (moves : List Move) : Pool :=
  moves.foldl (step d embed project force) w

end Pool

/-- Indexes files one after another, and notes for each what comes of it. -/
def indexEach (d : Disk) (embed : Embedder) (project : Path.Absolute) (force : Bool) (s : Store) :
    List String → List (String × Except IndexFault Bool) × Store
  | [] => ([], s)
  | file :: files =>
    let r := indexFile d embed s project force (d.absolute file)
    let (rest, store) := indexEach d embed project force r.store files
    ((file, r.result) :: rest, store)

end SourceAtlas
