/-!
# Parse trees

The trees that a parse builds: tokens with their places in the text, and nodes with the production
they come from. Of two trees for one stretch of text, the one of greater weight is preferred, then
the one that comes first in an order by symbols and shapes.
-/

namespace SourceAtlas.Grammar

/-- A parse tree. `extra` marks a token that may stand anywhere; `weight` sums the weights of the
productions inside. Places count characters. -/
inductive ParseTree where
  | token (symbol start stop : Nat) (extra : Bool)
  | node (symbol production start stop : Nat) (weight : Int) (children : List ParseTree)
  deriving Inhabited

namespace ParseTree

def symbol : ParseTree → Nat
  | token s _ _ _ => s
  | node s _ _ _ _ _ => s

def start : ParseTree → Nat
  | token _ a _ _ => a
  | node _ _ a _ _ _ => a

def stop : ParseTree → Nat
  | token _ _ b _ => b
  | node _ _ _ b _ _ => b

def extra : ParseTree → Bool
  | token _ _ _ e => e
  | node _ _ _ _ _ _ => false

def weight : ParseTree → Int
  | token _ _ _ _ => 0
  | node _ _ _ _ w _ => w

def children : ParseTree → List ParseTree
  | token _ _ _ _ => []
  | node _ _ _ _ _ cs => cs

/-- A node over `children`; without children it is empty and stands at `place`. -/
def build (symbol production : Nat) (place : Nat) (weight : Int) (children : List ParseTree) :
    ParseTree :=
  let start := match children with | [] => place | c :: _ => c.start
  let stop := match children.getLast? with | none => place | some c => c.stop
  node symbol production start stop (children.foldl (fun w c => w + c.weight) weight) children

/-- Compares pairs of trees from a list of pairs, the first of them first: by symbol, by number of
children, then child by child. `fuel` bounds the pairs looked at. -/
def compareAll : Nat → List (ParseTree × ParseTree) → Ordering
  | 0, _ => .eq
  | _, [] => .eq
  | fuel + 1, (a, b) :: rest =>
    match compare a.symbol b.symbol with
    | .eq =>
      match compare a.children.length b.children.length with
      | .eq => compareAll fuel (a.children.zip b.children ++ rest)
      | o => o
    | o => o

/-- Whether `new` replaces `old` as the tree of a stretch of text. -/
def replaces (old new : ParseTree) : Bool :=
  if old.weight < new.weight then true
  else if new.weight < old.weight then false
  else compareAll (4 * (old.stop - old.start) + 1000) [(old, new)] == .gt

/-- The same symbol over the same text with as many children. -/
def matches? (a b : ParseTree) : Bool :=
  a.symbol == b.symbol && a.start == b.start && a.stop == b.stop && a.extra == b.extra &&
    a.children.length == b.children.length

end ParseTree

end SourceAtlas.Grammar
