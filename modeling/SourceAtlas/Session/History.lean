import SourceAtlas.Index.Pool
import SourceAtlas.Session.Basic

/-!
# Histories of sessions

What a session is asked to do to its store, one request after another. Each request comes with the
files as they are then, and an embedder may answer the same text otherwise each time it is asked.
-/

namespace SourceAtlas

/-- The files and the embedder as they are at one moment. -/
structure Scene where
  disk : Disk
  embed : Embedder

/-- A move of a run with workers, and the moment at which it is made. -/
structure Turn where
  now : Scene
  move : Move

/-- A run with workers after turns. -/
def Pool.through (project : Path.Absolute) (force : Bool) (w : Pool) (turns : List Turn) : Pool :=
  turns.foldl (fun w t => w.step t.now.disk t.now.embed project force t.move) w

/-- The texts that the worker of a turn asks the embedder for, each with its file. -/
def Turn.asked (project : Path.Absolute) (force : Bool) (s : Store) (t : Turn) :
    List (String × String) :=
  match t.move with
  | .prepare file =>
    (prepare t.now.disk t.now.embed s project force (t.now.disk.absolute file)).asked.map
      fun text => (file, text)
  | .handle _ => []

/-- All texts that the workers of turns ask the embedder for. -/
def Pool.calls (project : Path.Absolute) (force : Bool) (w : Pool) :
    List Turn → List (String × String)
  | [] => []
  | t :: turns =>
    t.asked project force w.run.store ++
      (w.step t.now.disk t.now.embed project force t.move).calls project force turns

/-- What can be asked of a session that changes its store. A tree is indexed by one worker or by
several; what several do, and how far they come, is given by their turns. -/
inductive Request where
  | indexFile (now : Scene) (path : String) (force : Bool)
  | indexTree (now : Scene) (path : String) (force : Bool)
  | indexTogether (d : Disk) (path : String) (force : Bool) (turns : List Turn)
  | remove (d : Disk) (path : String)

/-- The moments at which a request may read files and ask an embedder. -/
def Request.scenes : Request → List Scene
  | indexFile now _ _ | indexTree now _ _ => [now]
  | indexTogether _ _ _ turns => turns.map Turn.now
  | remove _ _ => []

namespace Session

/-- Indexes a tree with several workers. -/
def indexTogether (s : Session) (d : Disk) (path : String) (force : Bool) (turns : List Turn) :
    TreeRun :=
  ((Pool.start d s.store s.walkRule path).through s.project force turns).run

/-- Carries out a request, whether it succeeds or fails. -/
def serve (s : Session) : Request → Session
  | .indexFile now path force =>
    { s with store := (s.indexFile now.disk now.embed path force).store }
  | .indexTree now path force =>
    { s with store := (s.indexTree now.disk now.embed path force).store }
  | .indexTogether d path force turns =>
    { s with store := (s.indexTogether d path force turns).store }
  | .remove d path => (s.remove d path).2

/-- Carries out requests one after another. -/
def serveAll (s : Session) (rs : List Request) : Session := rs.foldl serve s

end Session

end SourceAtlas
