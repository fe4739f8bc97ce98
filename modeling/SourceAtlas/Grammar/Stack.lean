import SourceAtlas.Grammar.Tree

/-!
# Shared stacks

The stacks of all readings of a text in progress, kept as one graph. A vertex is a state at a
place; its links lead to the vertices below it, each with the tree in between. A vertex with two
links stands for two readings that have come to the same state.
-/

namespace SourceAtlas.Grammar

/-- An edge to the vertex below, with the tree it spans. -/
structure Link where
  below : Nat
  tree : ParseTree
  deriving Inhabited

/-- A state at a place of the text. `weight` is the best weight of the trees below. -/
structure Vertex where
  state : Nat
  place : Nat
  weight : Int
  links : Array Link
  deriving Inhabited

/-- The vertices of all stacks, by number. -/
abbrev Vertices := Array Vertex

namespace Vertices

/-- A vertex on top of `below`. -/
def push (vs : Vertices) (below state : Nat) (tree : ParseTree) : Vertices × Nat :=
  let top := vs.size
  let b := vs[below]!
  (Array.push vs ⟨state, max b.place tree.stop, b.weight + tree.weight, #[⟨below, tree⟩]⟩, top)

/-- The link among `links`, from the given one on, that reads the same tree as `l` does over the
same vertex (`sameBelow`) or over one in the same state at the same place. -/
def findTwin (vs : Vertices) (links : Array Link) (l : Link) : Option (Nat × Bool) := Id.run do
  for i in [0 : links.size] do
    let e := links[i]!
    if e.tree.matches? l.tree then
      if e.below == l.below then return some (i, true)
      let a := vs[e.below]!
      let b := vs[l.below]!
      if a.state == b.state && a.place == b.place then return some (i, false)
  return none

/-- Adds links to vertices, one after the other. A link to a vertex already linked keeps the tree
of greater weight; links to equal vertices unite what is below; a vertex holds at most eight. -/
def addLinks : Nat → List (Nat × Link) → Vertices → Vertices
  | 0, _, vs => vs
  | _, [], vs => vs
  | fuel + 1, (v, l) :: rest, vs =>
    let vertex := vs[v]!
    if l.below == v then addLinks fuel rest vs
    else
      let weight := (vs[l.below]!).weight + l.tree.weight
      match findTwin vs vertex.links l with
      | some (i, true) =>
        if (vertex.links[i]!).tree.weight < l.tree.weight then
          addLinks fuel rest
            (vs.set! v { vertex with links := vertex.links.set! i l, weight := weight })
        else addLinks fuel rest vs
      | some (i, false) =>
        let target := (vertex.links[i]!).below
        let lower := (vs[l.below]!).links.toList.map fun x => (target, x)
        let vs := vs.set! v { vertex with weight := max vertex.weight weight }
        addLinks fuel (lower ++ rest) vs
      | none =>
        if vertex.links.size ≥ 8 then addLinks fuel rest vs
        else
          addLinks fuel rest
            (vs.set! v { vertex with links := vertex.links.push l
                                     weight := max vertex.weight weight })

/-- Unites vertex `b` into vertex `a`. -/
def unite (vs : Vertices) (a b : Nat) : Vertices :=
  addLinks (16 * (vs.size + 64)) ((vs[b]!).links.toList.map fun l => (a, l)) vs

/-! ## Popping -/

/-- A way down a stack: the vertex reached, the trees above it and how many of them count. -/
structure Descent where
  vertex : Nat
  trees : List ParseTree
  count : Nat
  deriving Inhabited

def Descent.step (d : Descent) (l : Link) : Descent :=
  ⟨l.below, l.tree :: d.trees, if l.tree.extra then d.count else d.count + 1⟩

/-- All ways down by `count` trees, in rounds of one tree each; extras do not count. The ways that
are complete are collected in the order in which they end. -/
def descend (vs : Vertices) (count : Nat) : Nat → List Descent → List (Nat × List ParseTree) →
    List (Nat × List ParseTree)
  | 0, _, out => out.reverse
  | _, [], out => out.reverse
  | fuel + 1, ds, out =>
    let ended := ds.filter (·.count == count)
    let going := ds.filter (·.count != count)
    let first := going.filterMap fun d => (vs[d.vertex]!).links[0]?.map d.step
    let others := going.flatMap fun d => ((vs[d.vertex]!).links.toList.drop 1).map d.step
    descend vs count fuel (first ++ others.take (64 - first.length))
      ((ended.map fun d => (d.vertex, d.trees)).reverse ++ out)

/-- Groups the ways down by the vertex they end at, in order of first appearance. -/
def grouped (ways : List (Nat × List ParseTree)) : List (Nat × List (List ParseTree)) :=
  ways.foldl
    (fun out w =>
      if out.any (·.1 == w.1) then
        out.map fun g => if g.1 == w.1 then (g.1, g.2 ++ [w.2]) else g
      else out ++ [(w.1, [w.2])])
    []

/-- The ways down by `count` trees from a vertex, grouped by where they end. -/
def pop (vs : Vertices) (v count : Nat) : List (Nat × List (List ParseTree)) :=
  grouped (descend vs count (vs.size + 1) [⟨v, [], 0⟩] [])

/-- Every way down to the bottom. -/
def popAll (vs : Vertices) : Nat → List (Nat × List ParseTree) → List (List ParseTree)
  | 0, _ => []
  | _, [] => []
  | fuel + 1, (v, trees) :: rest =>
    match (vs[v]!).links.toList with
    | [] => trees :: popAll vs fuel rest
    | ls => popAll vs fuel (ls.map (fun l => (l.below, l.tree :: trees)) ++ rest)

end Vertices

end SourceAtlas.Grammar
