import SourceAtlas.Number.Decimal

/-!
# Vectors

Vectors as they are handed in: lists of numbers, nested to any depth. The numbers of a vector are
doubles; an integer becomes the nearest one, if there is one.

Stands for the conversion of lists to arrays by the array library, as `_vec_to_bytes`,
`Retriever.search` and `cosine_similarity` use it.
-/

namespace SourceAtlas

open Number

/-- A number of a vector. -/
inductive Scalar where
  | float (x : Float)
  | int (n : Int)
  deriving Inhabited

/-- Numbers in lists. -/
inductive Nested where
  | one (s : Scalar)
  | many (ns : List Nested)
  deriving Inhabited

/-- How many dimensions an array has at most, unless another limit is given. The array library has
had this one since its second version; before, it was half of it. -/
def maxDimensions : Nat := 64

/-- Why numbers in lists are no array of doubles: lists of unequal lengths behind the dimensions
given, lists nested deeper than an array has dimensions, or an integer beyond every double. -/
inductive ArrayError where
  | ragged (dims : List Nat)
  | tooDeep (limit : Nat)
  | tooLarge
  deriving BEq, DecidableEq, Repr

/-- Dimensions between parentheses; a single one has a comma behind it. -/
def dimsText : List Nat → String
  | [d] => s!"({d},)"
  | ds => "(" ++ ", ".intercalate (ds.map toString) ++ ")"

namespace ArrayError

def message : ArrayError → String
  | ragged dims =>
    "setting an array element with a sequence. The requested array has an inhomogeneous shape " ++
      s!"after {dims.length} dimensions. The detected shape was {dimsText dims} + " ++
      "inhomogeneous part."
  | tooDeep limit =>
    "setting an array element with a sequence. The requested array would exceed the maximum " ++
      s!"number of dimension of {limit}."
  | tooLarge => "int too large to convert to float"

end ArrayError

/-! ## Shapes -/

/-- The dimensions that all parts agree on, and whether they agree on all. -/
structure Form where
  dims : List Nat
  uniform : Bool
  deriving BEq, DecidableEq, Repr, Inhabited

/-- The dimensions that two lists share at their start. -/
def sharedDims : List Nat → List Nat → List Nat
  | a :: as, b :: bs => if a == b then a :: sharedDims as bs else []
  | _, _ => []

/-- The form that two parts agree on. -/
def Form.meet (a b : Form) : Form :=
  ⟨sharedDims a.dims b.dims, a.uniform && b.uniform && a.dims == b.dims⟩

namespace Nested

mutual

def form : Nested → Form
  | one _ => ⟨[], true⟩
  | many ns => ⟨ns.length :: (formOfAll ns).dims, (formOfAll ns).uniform⟩

/-- The form that all of a list agree on. -/
def formOfAll : List Nested → Form
  | [] => ⟨[], true⟩
  | [n] => form n
  | n :: ns => (form n).meet (formOfAll ns)

end

mutual

/-- The numbers in order. -/
def scalars : Nested → List Scalar
  | one s => [s]
  | many ns => scalarsOfAll ns

def scalarsOfAll : List Nested → List Scalar
  | [] => []
  | n :: ns => scalars n ++ scalarsOfAll ns

end

end Nested

def Scalar.toFloat? : Scalar → Option Float
  | float x => some x
  | int n => floatOfInt? n

/-! ## Arrays of doubles -/

/-- Doubles with dimensions. -/
structure Doubles where
  dims : List Nat
  elements : List Float
  deriving Inhabited

/-- The array of doubles that lists of numbers make. Their shape is found out before any number is
converted, and no deeper than an array has dimensions. -/
def Nested.toDoubles (n : Nested) (limit : Nat := maxDimensions) : Except ArrayError Doubles :=
  let form := n.form
  if form.uniform && form.dims.length ≤ limit then
    match n.scalars.mapM Scalar.toFloat? with
    | some xs => .ok ⟨form.dims, xs⟩
    | none => .error .tooLarge
  else if limit ≤ form.dims.length then .error (.tooDeep limit)
  else .error (.ragged form.dims)

end SourceAtlas
