import SourceAtlas.Embedding.Embedder
import SourceAtlas.Files.Disk
import SourceAtlas.Reference.Extract
import SourceAtlas.Store.Read
import SourceAtlas.Store.Write
import SourceAtlas.Text.Digest
import SourceAtlas.Text.Lines

/-!
# Indexing a file

A file is read and, unless the store has its text already, its references are extracted, its text is
embedded, and both are written to the store. What is prepared and what is written are separate
steps.

Models `Indexer._prepare` (`prepare`), `Indexer._write` and `Indexer.index_file` (`indexFile`). Log
records are left out.
-/

namespace SourceAtlas

/-! ## Faults -/

/-- Why a file is not indexed. -/
inductive IndexFault where
  | file (e : FileError)
  | embedder (f : EmbedderFault)
  | store (e : StoreError)
  deriving BEq, DecidableEq, Repr

namespace IndexFault

def message : IndexFault → String
  | file e => e.message
  | embedder f => f.message
  | store e => e.message

def family : IndexFault → FaultFamily
  | file e => e.family
  | embedder f => f.family
  | store e => e.family

end IndexFault

/-! ## Preparation -/

/-- What is prepared of a file: nothing where the store has its text already. `asked` holds the
texts that were embedded, and `unparsed` tells that no references could be extracted. -/
structure Preparation where
  key : String
  asked : List String
  unparsed : Option ParseFailure
  draft : Except IndexFault (Option Draft)
  deriving Inhabited

/-- A reference as it is handed to the store. -/
def Reference.toDraft (r : Reference) : DraftReference :=
  ⟨some (.text r.name), .text r.kind.toString, .int r.line, r.source⟩

/-- The language that is noted for a document. -/
def languageOf (key : String) : String :=
  ((Script.Dialect.ofPath? key).map Script.Dialect.toString).getD ""

/-- The draft of a document from its text, its references and its vector. -/
def draftOf (key text : String) (references : List Reference) (vector : Nested) : Draft :=
  { path := some key
    content := some text
    vector := some vector
    references := references.map Reference.toDraft
    hash := some (Text.Digest.ofText text)
    language := some (languageOf key) }

/-- Prepares a text that is to be stored under a key. -/
def prepareText (embed : Embedder) (key text : String) : Preparation :=
  let (references, unparsed) := match extract? key text with
    | .ok rs => (rs, none)
    | .error e => ([], some e)
  let draft := match embed text with
    | .ok vector => .ok (some (draftOf key text references vector))
    | .error f => .error (.embedder f)
  ⟨key, [text], unparsed, draft⟩

/-- Prepares a file of a project. With `force` it does not matter what the store has. -/
def prepare (d : Disk) (embed : Embedder) (s : Store) (project : Path.Absolute) (force : Bool)
    (path : Path.Absolute) : Preparation :=
  let key := Path.documentKey project path
  match d.read path.toString with
  | .error e => ⟨key, [], none, .error (.file e)⟩
  | .ok bytes =>
    let text := Text.ofFile bytes
    if force then prepareText embed key text
    else
      match s.hash key with
      | .error e => ⟨key, [], none, .error (.store e)⟩
      | .ok known =>
        if known == some (Text.Digest.ofText text) then ⟨key, [], none, .ok none⟩
        else prepareText embed key text

/-! ## Writing -/

/-- Writes what was prepared, and tells whether there was anything to write. -/
def Preparation.write (p : Preparation) (s : Store) : Except IndexFault Bool × Store :=
  match p.draft with
  | .error f => (.error f, s)
  | .ok none => (.ok false, s)
  | .ok (some draft) =>
    match s.upsert draft with
    | (.ok (), s) => (.ok true, s)
    | (.error e, s) => (.error (.store e), s)

/-- What came of indexing a file: whether it was written, and the store after it. -/
structure FileRun where
  key : String
  asked : List String
  unparsed : Option ParseFailure
  result : Except IndexFault Bool
  store : Store
  deriving Inhabited

/-- Indexes a file. -/
def indexFile (d : Disk) (embed : Embedder) (s : Store) (project : Path.Absolute) (force : Bool)
    (path : Path.Absolute) : FileRun :=
  let p := prepare d embed s project force path
  let (result, store) := p.write s
  ⟨p.key, p.asked, p.unparsed, result, store⟩

end SourceAtlas
