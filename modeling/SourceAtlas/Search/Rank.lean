/-!
# Ranking

Puts scored items in the order of falling scores. Items with equal scores keep their order. A score
that is no number compares as neither less nor more than any other; where one occurs, the order is
that of an insertion by halves into the run at the end of the list.

Stands for the sort of `Retriever.search`: by score and reversed, as the standard library sorts.
-/

namespace SourceAtlas

namespace Rank

variable {α : Type}

/-! ## Scores that compare -/

/-- The items by falling scores, all of which are numbers. -/
def byScore (items : List (α × Float)) : List (α × Float) :=
  items.mergeSort fun a b => !(a.2 < b.2)

/-! ## Insertion by halves -/

/-- The place of a score in a list, between two places: the first half is left out where the score
is not less than the middle one. -/
def placeOf (score : Float) (items : Array (α × Float)) (low high : Nat) : Nat :=
  if low < high then
    let middle := low + (high - low) / 2
    if (items[middle]?).any fun m => score < m.2 then placeOf score items low middle
    else placeOf score items (middle + 1) high
  else low
termination_by high - low

/-- Inserts the items of a list one after another. -/
def insertAll (sorted : Array (α × Float)) : List (α × Float) → Array (α × Float)
  | [] => sorted
  | item :: rest =>
    insertAll (sorted.insertIdxIfInBounds (placeOf item.2 sorted 0 sorted.size) item) rest

/-- The length of the run that goes on behind an item. -/
def runLength (falling : Bool) (last : α × Float) : List (α × Float) → Nat
  | [] => 0
  | next :: rest =>
    if decide (next.2 < last.2) == falling then runLength falling next rest + 1 else 0

/-- Sorts by rising scores: the first run of the list as it is, or turned around where it falls, and
then the others inserted. -/
def insertionSort : List (α × Float) → List (α × Float)
  | [] => []
  | [item] => [item]
  | first :: second :: rest =>
    let falling := decide (second.2 < first.2)
    let n := 2 + runLength falling second rest
    let items := first :: second :: rest
    let run := if falling then (items.take n).reverse else items.take n
    (insertAll run.toArray (items.drop n)).toList

/-! ## All scores -/

/-- The items in the order of falling scores. -/
def rank (items : List (α × Float)) : List (α × Float) :=
  if items.any fun i => i.2.isNaN then (insertionSort items.reverse).reverse else byScore items

end Rank

end SourceAtlas
