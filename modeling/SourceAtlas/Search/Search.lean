import SourceAtlas.Embedding.Embedder
import SourceAtlas.Reference.Aggregate
import SourceAtlas.Search.Rank
import SourceAtlas.Search.Score
import SourceAtlas.Store.Read

/-!
# Search

Finds the stored documents whose vectors point most nearly where the vector of a query points.

Models `Retriever.search`, the rest of `_score_documents`, `SearchResult` and `build_context`
(`contextOf`). Log records other than the warnings of `_score_documents` are left out.
-/

namespace SourceAtlas

/-! ## Scores -/

def StoredDocument.floats (d : StoredDocument) : List Float := d.vector.map Single.toFloat

/-- Why a document takes no part in a search. -/
inductive Unscored where
  | dimensions (path : String) (actual expected : Nat)
  | zero (path : String)
  deriving BEq, DecidableEq, Repr

namespace Unscored

def message : Unscored → String
  | dimensions path actual expected =>
    s!"Skipping {path}: embedding has {actual} dimensions, query has {expected}"
  | zero path => s!"Skipping {path}: zero-norm embedding"

end Unscored

/-- The score of a document for a query: its vector must be as long as the query's and not zero. -/
def scoreOf (query : List Float) (d : StoredDocument) : Except Unscored Float :=
  let row := d.floats
  if row.length != query.length then
    .error (.dimensions d.path row.length query.length)
  else if 0 < norm row then .ok (similarity row query)
  else .error (.zero d.path)

/-- The documents that have a score, with it. -/
def scored (query : List Float) (ds : List StoredDocument) : List (StoredDocument × Float) :=
  (scoresByPlace query (ds.map StoredDocument.floats)).filterMap fun (i, x) =>
    ds[i]?.map fun d => (d, x)

/-- Why the others have none. -/
def unscored (query : List Float) (ds : List StoredDocument) : List Unscored :=
  ds.filterMap fun d =>
    match scoreOf query d with
    | .ok _ => none
    | .error u => some u

/-! ## Results -/

/-- A document that was found. -/
structure SearchResult where
  path : String
  content : String
  score : Float
  names : Variables
  deriving Inhabited

/-- What names a result shows: those that are not ignored and occur often enough. -/
structure NameRule where
  ignored : List String
  least : Int
  deriving Inhabited

/-- The names of a document. -/
def StoredDocument.names (rule : NameRule) (d : StoredDocument) : Variables :=
  Variables.aggregate (d.references.map fun r => (r.name, ⟨r.line, r.kind, r.source⟩))
    rule.ignored (max 1 rule.least)

/-- How many results there are of `n` when `k` are wanted: at least one. -/
def resultCount (k : Int) (n : Nat) : Nat := (max 1 (min k n)).toNat

/-- The best results. -/
def topResults (rule : NameRule) (k : Int) (items : List (StoredDocument × Float)) :
    List SearchResult :=
  ((Rank.rank items).take (resultCount k items.length)).map fun (d, x) =>
    ⟨d.path, d.content, x, d.names rule⟩

/-- Results as a single text for a reader further on. -/
def contextOf (results : List (String × String)) : String :=
  "\n\n".intercalate (results.map fun r => r.1 ++ ":\n" ++ r.2)

/-! ## The search -/

/-- Why a search fails. -/
inductive SearchError where
  | store (e : StoreError)
  | embedder (f : EmbedderFault)
  | array (e : ArrayError)
  | noDirection
  | dimensions (actual expected : Nat)
  | zeroNorm
  deriving BEq, DecidableEq, Repr

namespace SearchError

def message : SearchError → String
  | store e => e.message
  | embedder f => f.message
  | array e => e.message
  | noDirection => "Query embedding is empty or all zeros"
  | dimensions actual expected => s!"Query embedding has {actual} dimensions, store expects " ++
      s!"{expected}; was the embedding model changed?"
  | zeroNorm => "cosine similarity is undefined for a zero query vector"

def family : SearchError → FaultFamily
  | store e => e.family
  | embedder f => f.family
  | noDirection | dimensions _ _ => .embedding
  | array _ | zeroNorm => .other

end SearchError

/-- What came of a search: the texts that were embedded, the documents that took no part, and the
results. -/
structure SearchRun where
  asked : List String
  unscored : List Unscored
  results : Except SearchError (List SearchResult)

/-- The vector of a query: a list of numbers, one of them not zero, as long as the stored ones. -/
def queryVector (answer : Except EmbedderFault Nested) (expected : Option Nat) :
    Except SearchError (List Float) := do
  let nested ← answer.mapError .embedder
  let a ← nested.toDoubles.mapError .array
  if a.dims.length != 1 || a.elements.all (· == 0) then throw .noDirection
  match expected with
  | some n => if a.elements.length != n then throw (.dimensions a.elements.length n)
  | none => pure ()
  if norm a.elements == 0 then throw .zeroNorm
  return a.elements

/-- Searches a store for the documents nearest to a query. In an empty store nothing is asked. -/
def Store.search (s : Store) (embed : Embedder) (rule : NameRule) (query : String) (k : Int) :
    SearchRun :=
  match s.all with
  | .error e => ⟨[], [], .error (.store e)⟩
  | .ok [] => ⟨[], [], .ok []⟩
  | .ok documents =>
    match queryVector (embed query) s.tables.dimensions with
    | .error e => ⟨[query], [], .error e⟩
    | .ok v =>
      let items := scored v documents
      let results := if items.isEmpty then [] else topResults rule k items
      ⟨[query], unscored v documents, .ok results⟩

end SourceAtlas
