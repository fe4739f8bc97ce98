import SourceAtlas.Grammar.Production

/-!
# Items

An item is a production read up to some step. Two items are one when what was read has the same
length, precedence, displayed names and fields and what remains is the same: they lead to the same
trees. The table of a grammar lists its items, what each starts with, and which rules begin with
which.

Sets of tokens are natural numbers: token `t` belongs to the set when bit `t` is on.
-/

namespace SourceAtlas.Grammar

open Std (HashMap HashSet)

/-- A production read up to a step. `next` is the symbol of that step and `after` the item behind
it; `level` and `side` are those of the last step read. -/
structure Item where
  lhs : Nat
  dot : Nat
  next : Option Nat
  after : Nat
  reserved : Nat
  level : Level
  side : Option Side
  production : Nat
  deriving Inhabited

/-- What a completed production builds: the displayed names and fields of its children. -/
structure Shape where
  lhs : Nat
  count : Nat
  weight : Int
  displays : Array (Option Display)
  fields : Array (Option String)
  deriving Inhabited

/-- A rule that can begin another one, with the tokens that may follow it there; `open` when
whatever follows the outer rule may follow it too. -/
structure Opening where
  rule : Nat
  ahead : Nat
  passes : Bool
  reserved : Nat
  deriving Inhabited

/-- The items of a grammar and its tables of beginnings. -/
structure Table where
  grammar : Expansion
  orders : List (List Rank)
  items : Array Item
  shapes : Array Shape
  empties : Array (Nat × Nat)
  byFirst : Array (Array (Nat × Nat))
  first : Array Nat
  firstReserved : Array Nat
  openings : Array (Array Opening)
  deriving Inhabited

/-- One round of propagating first tokens through the rules. -/
def firstRound (g : Expansion) (first : Array Nat) : Array Nat := Id.run do
  let mut first := first
  for lhs in [g.tokenCount : g.symbols.size] do
    let mut set := first[lhs]!
    for p in g.productions[lhs]! do
      if let s :: _ := p.steps then set := set ||| first[s.symbol]!
    first := first.set! lhs set
  return first

/-- Repeats `firstRound` until nothing changes, at most `fuel` times. -/
def firstSets (g : Expansion) : Nat → Array Nat → Array Nat
  | 0, first => first
  | fuel + 1, first =>
    let next := firstRound g first
    if next == first then first else firstSets g fuel next

/-- One round of propagating through the rules which set of words is reserved at their starts. -/
def firstReservedRound (g : Expansion) (reserved : Array Nat) : Array Nat := Id.run do
  let mut reserved := reserved
  for lhs in [g.tokenCount : g.symbols.size] do
    let mut set := reserved[lhs]!
    for p in g.productions[lhs]! do
      if let s :: _ := p.steps then set := max (max set s.reserved) reserved[s.symbol]!
    reserved := reserved.set! lhs set
  return reserved

/-- Repeats `firstReservedRound` until nothing changes, at most `fuel` times. -/
def firstReservedSets (g : Expansion) : Nat → Array Nat → Array Nat
  | 0, reserved => reserved
  | fuel + 1, reserved =>
    let next := firstReservedRound g reserved
    if next == reserved then reserved else firstReservedSets g fuel next

/-- The rules that can begin `rule`: works through a list of rules still to visit. -/
def openingsOf (g : Expansion) (first firstReserved : Array Nat) :
    Nat → List (Nat × Nat × Nat × Bool) → HashMap Nat Opening → HashMap Nat Opening
  | 0, _, found => found
  | _, [], found => found
  | fuel + 1, (rule, ahead, res, passes) :: work, found =>
    let old := found.getD rule ⟨rule, 0, false, 0⟩
    let new : Opening :=
      ⟨rule, old.ahead ||| ahead, old.passes || passes, max old.reserved res⟩
    if found.contains rule && new.ahead == old.ahead && new.passes == old.passes
        && new.reserved == old.reserved then
      openingsOf g first firstReserved fuel work found
    else
      let work := (g.productions[rule]!).foldl
        (fun work p =>
          match p.steps with
          | s :: t :: _ =>
            if s.symbol < g.tokenCount then work
            else (s.symbol, first[t.symbol]!, firstReserved[t.symbol]!, false) :: work
          | [s] => if s.symbol < g.tokenCount then work else (s.symbol, ahead, res, passes) :: work
          | [] => work)
        work
      openingsOf g first firstReserved fuel work (found.insert rule new)

/-- The table of a grammar. Item `0` is the whole text about to be read. -/
def Expansion.table (g : Expansion) (orders : List (List Rank)) : Table := Id.run do
  -- all productions, the whole text first
  let mut all : Array Production := #[⟨0, [{ symbol := g.start }], 0⟩]
  for lhs in [g.tokenCount : g.symbols.size] do
    unless g.inlined.contains lhs do
      for p in g.productions[lhs]! do all := all.push p
  -- numbers for steps, for what was read and for what remains
  let mut stepIds : HashMap Step Nat := {}
  let mut suffixIds : HashMap (Nat × Nat) Nat := {}
  let mut markIds : HashMap (Option Display × Option String) Nat := {}
  let mut prefixIds : HashMap (Nat × Nat) Nat := {}
  let mut bindIds : HashMap (Level × Option Side) Nat := {}
  let mut heads : Array (Array Nat) := #[]
  let mut tails : Array (Array Nat) := #[]
  let mut longest := 0
  for p in all do
    let steps := p.steps.toArray
    longest := max longest steps.size
    let mut tail : Array Nat := #[0]
    let mut t := 0
    for i in [0 : steps.size] do
      let s := steps[steps.size - 1 - i]!
      let sid := stepIds.getD s (stepIds.size + 1)
      stepIds := stepIds.insert s sid
      let tid := suffixIds.getD (sid, t) (suffixIds.size + 1)
      suffixIds := suffixIds.insert (sid, t) tid
      t := tid
      tail := tail.push t
    let mut head : Array Nat := #[0]
    let mut h := 0
    for s in steps do
      let m := (s.display, s.field)
      let mid := markIds.getD m (markIds.size + 1)
      markIds := markIds.insert m mid
      let hid := prefixIds.getD (mid, h) (prefixIds.size + 1)
      prefixIds := prefixIds.insert (mid, h) hid
      h := hid
      head := head.push h
    heads := heads.push head
    tails := tails.push tail.reverse
  -- the items, by how far they are read
  let mut known : HashMap (Nat × Nat × Int × Nat × Nat × Nat) Nat := {}
  let mut items : Array Item := #[]
  let mut itemOf : Array (Array Nat) := Array.replicate all.size #[]
  for dot in [0 : longest + 1] do
    for i in [0 : all.size] do
      let p := all[i]!
      let steps := p.steps.toArray
      if dot ≤ steps.size then
        let last := if dot == 0 then ({} : Surroundings)
          else { level := steps[dot - 1]!.level, side := steps[dot - 1]!.side }
        let bind := (last.level, last.side)
        let bid := bindIds.getD bind (bindIds.size + 1)
        bindIds := bindIds.insert bind bid
        let key := (p.lhs, dot, p.weight, bid, (heads[i]!)[dot]!, (tails[i]!)[dot]!)
        match known[key]? with
        | some id => itemOf := itemOf.modify i (·.push id)
        | none =>
          let id := items.size
          known := known.insert key id
          let step := steps[dot]?
          items := items.push
            ⟨p.lhs, dot, step.map (·.symbol), 0, (step.map (·.reserved)).getD 0, last.level,
              last.side, i⟩
          itemOf := itemOf.modify i (·.push id)
  for i in [0 : all.size] do
    let row := itemOf[i]!
    for d in [0 : row.size - 1] do
      let after := row[d + 1]!
      items := items.modify row[d]! fun it => { it with after := after }
  let shapes := all.map fun p =>
    (⟨p.lhs, p.steps.length, p.weight, (p.steps.map (·.display)).toArray,
      (p.steps.map (·.field)).toArray⟩ : Shape)
  -- what begins with what
  let mut byFirst : Array (Array (Nat × Nat)) := Array.replicate g.symbols.size #[]
  let mut empties : Array (Nat × Nat) := #[]
  let mut begun : HashSet Nat := {}
  for i in [1 : all.size] do
    let row := itemOf[i]!
    unless begun.contains row[0]! do
      begun := begun.insert row[0]!
      match all[i]!.steps with
      | [] => empties := empties.push (all[i]!.lhs, i)
      | s :: _ => byFirst := byFirst.modify s.symbol (·.push (all[i]!.lhs, row[1]!))
  -- first tokens
  let tokensFirst := (Array.range g.symbols.size).map fun s =>
    if s < g.tokenCount then 1 <<< s else 0
  let first := firstSets g g.symbols.size tokensFirst
  let firstReserved := firstReservedSets g g.symbols.size (Array.replicate g.symbols.size 0)
  let openings := (Array.range g.symbols.size).map fun s =>
    if s < g.tokenCount || g.inlined.contains s then #[]
    else ((openingsOf g first firstReserved 1000000 [(s, 0, 0, true)] {}).toArray.map (·.2)).qsort
      fun a b => a.rule < b.rule
  return ⟨g, orders, items, shapes, empties, byFirst, first, firstReserved, openings⟩

/-! ## Precedence -/

/-- How two precedences compare; `same` when no order relates them. -/
inductive Comparison where
  | less
  | same
  | greater
  deriving BEq, Inhabited

/-- An entry of an order applies to a level of its name or to one of the rules. -/
def Rank.appliesTo (g : Expansion) (level : Level) (rules : List Nat) : Rank → Bool
  | .level n => level == .named n
  | .rule n => rules.any fun s => (g.symbols[s]!).name == n

/-- Looks for the two precedences in one order: the earlier entry is the greater. -/
def compareIn (g : Expansion) (l₁ : Level) (r₁ : List Nat) (l₂ : Level) (r₂ : List Nat) :
    Bool → Bool → List Rank → Option Comparison
  | _, _, [] => none
  | sawLeft, sawRight, e :: es =>
    if e.appliesTo g l₁ r₁ then
      if sawRight then some .less else compareIn g l₁ r₁ l₂ r₂ true sawRight es
    else if e.appliesTo g l₂ r₂ then
      if sawLeft then some .greater else compareIn g l₁ r₁ l₂ r₂ sawLeft true es
    else compareIn g l₁ r₁ l₂ r₂ sawLeft sawRight es

/-- Compares two precedences. Numbers compare as numbers and a missing one is zero; names and
rules compare by the first order that relates them. -/
def Table.compareLevels (t : Table) (l₁ : Level) (r₁ : List Nat) (l₂ : Level) (r₂ : List Nat) :
    Comparison :=
  let numbers (a b : Int) : Comparison := if a < b then .less else if b < a then .greater else .same
  let ordered := (t.orders.findSome? (compareIn t.grammar l₁ r₁ l₂ r₂ false false)).getD .same
  match l₁, l₂ with
  | .num a, .num b => if a != 0 || b != 0 then numbers a b else ordered
  | .num a, .none => if a != 0 then numbers a 0 else ordered
  | .none, .num b => if b != 0 then numbers 0 b else ordered
  | _, _ => ordered

end SourceAtlas.Grammar
