import SourceAtlas.Vector.Cosine

/-!
# Scores

The scores of many vectors for one query. The vectors that are as long as the query are stacked as
the rows of a matrix. A mask tells which rows have a direction, and each list that goes with the
rows, that of their places among them, is cut down to what the mask keeps.

Models the part of `_score_documents` that works on arrays.
-/

namespace SourceAtlas

/-- The elements at which a mask is set. -/
def masked {α : Type} (mask : List Bool) (xs : List α) : List α :=
  ((mask.zip xs).filter (·.1)).map (·.2)

/-- The vectors that are as long as a query, each with its place. -/
def stacked (query : List Float) (vectors : List (List Float)) : List (Nat × List Float) :=
  (vectors.zipIdx.filter fun v => v.1.length == query.length).map Prod.swap

/-- The scores of vectors for a query, each with the place of its vector. Vectors of another length
than the query's have none, and those without a direction. -/
def scoresByPlace (query : List Float) (vectors : List (List Float)) : List (Nat × Float) :=
  let usable := stacked query vectors
  if usable.isEmpty then []
  else
    let rows := usable.map (·.2)
    let norms := rows.map norm
    let keep := norms.map fun n => decide (0 < n)
    let products := (masked keep rows).map fun row => dot row query
    let scales := (masked keep norms).map fun n => n * norm query
    let scores := (products.zipWith (· / ·) scales).map clip
    (masked keep (usable.map (·.1))).zip scores

end SourceAtlas
