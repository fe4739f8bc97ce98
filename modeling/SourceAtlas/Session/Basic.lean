import SourceAtlas.Index.Tree
import SourceAtlas.Search.Search
import SourceAtlas.Settings.Load
import SourceAtlas.Store.Open

/-!
# Sessions

A session holds an open store with the settings and the project that it is used for.

Models `ContextSession` and the functions on it: `initialize` (`start`), `index_file`, `index_tree`,
`search`, `remove_file` and `close` (`finish`). The objects that a session is made of are left out;
each function takes what it uses of them.
-/

namespace SourceAtlas

/-! ## Faults -/

/-- Why something asked of a session fails. -/
inductive SessionFault where
  | settings (e : LoadError)
  | file (e : FileError)
  | store (e : StoreError)
  | index (f : IndexFault)
  | search (e : SearchError)
  deriving BEq, DecidableEq, Repr

namespace SessionFault

def family : SessionFault → FaultFamily
  | settings _ => .other
  | file e => e.family
  | store e => e.family
  | index f => f.family
  | search e => e.family

def message : SessionFault → String
  | settings _ => "a setting cannot be used"
  | file e => e.message
  | store e => e.message
  | index f => f.message
  | search e => e.message

end SessionFault

/-! ## Sessions -/

/-- A store in use. -/
structure Session where
  settings : Settings
  store : Store
  project : Path.Absolute
  deriving Inhabited

namespace Session

/-- Opens a session. A location that is not given, or is empty, is that of the settings. -/
def start (d : Disk) (location : Option String) (settings : Settings) (project : String) :
    Except StoreError Session × Disk :=
  let place := match location with
    | none | some "" => settings.storePath
    | some place => place
  match Store.openAt d place with
  | (.ok store, d) => (.ok ⟨settings, store, d.absolute project⟩, d)
  | (.error e, d) => (.error e, d)

/-- Closes a session. -/
def finish (s : Session) (d : Disk) : Session × Disk :=
  let (store, d) := s.store.close d
  ({ s with store }, d)

/-- The key of the document of a path. -/
def key (s : Session) (d : Disk) (path : String) : String :=
  Path.documentKey s.project (d.absolute path)

def indexFile (s : Session) (d : Disk) (embed : Embedder) (path : String) (force : Bool) :
    FileRun :=
  SourceAtlas.indexFile d embed s.store s.project force (d.absolute path)

def walkRule (s : Session) : WalkRule := .ofLists s.settings.extensions s.settings.ignoredDirs

def indexTree (s : Session) (d : Disk) (embed : Embedder) (path : String) (force : Bool) :
    TreeRun :=
  SourceAtlas.indexTree d embed s.store s.project s.walkRule force path

def nameRule (s : Session) : NameRule := ⟨s.settings.ignoredNames, s.settings.minOccurrences⟩

/-- Searches for a query; the settings tell how many results there are unless it is said. -/
def search (s : Session) (embed : Embedder) (query : String) (k : Option Int) : SearchRun :=
  s.store.search embed s.nameRule query (k.getD s.settings.topK)

/-- Removes the document of a path. -/
def remove (s : Session) (d : Disk) (path : String) : Except StoreError Bool × Session :=
  let (removed, store) := s.store.delete (some (s.key d path))
  (removed, { s with store })

end Session

end SourceAtlas
