import SourceAtlas.Vector.Basic

/-!
# Cosine similarity

The cosine of the angle between two vectors of doubles. Sums run from the first element to the
last; no scaling keeps large elements from overflowing or small ones from vanishing.

Models `cosine_similarity`.
-/

namespace SourceAtlas

/-- The sum of the products of elements at equal places. -/
def dot (a b : List Float) : Float := (a.zip b).foldl (fun s p => s + p.1 * p.2) 0

def norm (a : List Float) : Float := (dot a a).sqrt

/-- Brings a score between -1 and 1; a NaN stays one. -/
def clip (x : Float) : Float := if x < -1 then -1 else if 1 < x then 1 else x

/-- Why two vectors have no similarity. -/
inductive CosineError where
  | array (e : ArrayError)
  | shapes (a b : List Nat)
  | zero
  | misaligned (dims : List Nat)
  | notOneNumber

namespace CosineError

def message : CosineError → String
  | array e => e.message
  | shapes a b => s!"vector shapes differ: {dimsText a} vs {dimsText b}"
  | zero => "cosine similarity is undefined for a zero vector"
  | misaligned dims =>
    let n := dims.length
    let shape := "(" ++ ",".intercalate (dims.map toString) ++ ")"
    s!"shapes {shape} and {shape} not aligned: {dims.getD (n - 1) 0} (dim {n - 1}) != " ++
      s!"{dims.getD (n - 2) 0} (dim {n - 2})"
  | notOneNumber => "the product of the arrays is no single number"

end CosineError

/-- The similarity of two vectors of equal length, neither of them zero. -/
def similarity (a b : List Float) : Float := clip (dot a b / (norm a * norm b))

/-- The cosine similarity of two arrays. It is defined for single numbers and for vectors. -/
def cosine (a b : Nested) : Except CosineError Float := do
  let x ← a.toDoubles.mapError .array
  let y ← b.toDoubles.mapError .array
  if x.dims != y.dims then throw (.shapes x.dims y.dims)
  if norm x.elements == 0 || norm y.elements == 0 then throw .zero
  let n := x.dims.length
  if n < 2 then return similarity x.elements y.elements
  if x.dims.getD (n - 1) 0 != x.dims.getD (n - 2) 0 then throw (.misaligned x.dims)
  throw .notOneNumber

end SourceAtlas
