import SourceAtlas.Embedding.Client
import SourceAtlas.Fault.Family
import SourceAtlas.Vector.Basic

/-!
# Embedders

Whatever turns a text into a vector. What an embedder answers is not trusted: it may be any numbers
in lists, and a failure may be of any family.

Models the `embedder` argument of `Indexer` and `Retriever`: any object with a method `embed`.
-/

namespace SourceAtlas

/-- A failure of an embedder: what it is called, its family and its text. -/
structure EmbedderFault where
  family : FaultFamily
  name : String
  message : String
  deriving BEq, DecidableEq, Repr

/-- An embedder answers a text with a vector or fails. -/
abbrev Embedder := String → Except EmbedderFault Nested

/-- A vector as an embedder answers it. -/
def Nested.ofFloats (xs : List Float) : Nested := .many (xs.map fun x => .one (.float x))

namespace EmbedError

/-- The failure of a client as one of an embedder. -/
def toFault (e : EmbedError) : EmbedderFault :=
  { family := if e.isUnavailable then .embedding else .other
    name := if e.isUnavailable then "EmbeddingUnavailable" else "Unexpected"
    message := e.message }

end EmbedError

/-- The embedder that asks an endpoint, whose replies are given. -/
def Endpoint.embedder (e : Endpoint) (reply : String → Reply) : Embedder := fun text =>
  match e.vector (reply text) with
  | .ok xs => .ok (.ofFloats xs)
  | .error err => .error err.toFault

end SourceAtlas
