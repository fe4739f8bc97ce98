import SourceAtlas.Grammar.Item

/-!
# The parsing automaton

The states of the canonical left-to-right automaton of a grammar, built as they are visited. A
state is a set of items, each with the tokens that may follow it; from it one knows which tokens
may come next and what to do on each: shift it, reduce a completed production, or both, where the
grammar leaves the choice open.
-/

namespace SourceAtlas.Grammar

open Std (HashMap)

/-- An item with the tokens that may follow it and the words reserved there. -/
structure Entry where
  item : Nat
  ahead : Nat
  reserved : Nat
  deriving BEq, Hashable, Inhabited

/-- A state. `follow` gives for each rule that may begin here the tokens that may follow it. -/
structure State where
  kernel : Array Entry
  follow : Array Nat
  followReserved : Array Nat
  valid : Nat
  reserved : List Nat
  deriving Inhabited

/-- What to do on a token. `again` marks a shift that only repeats an auxiliary rule. -/
inductive Action where
  | shift (state : Nat) (again : Bool)
  | extra
  | reduce (production : Nat)
  | accept
  deriving Inhabited

/-- The states met so far and the moves between them. -/
structure Automaton where
  table : Table
  states : Array State := #[]
  known : HashMap (Array Entry) Nat := {}
  gotos : HashMap Nat Nat := {}
  actions : HashMap Nat (Array Action) := {}
  deriving Inhabited

/-- Entries in item order, those of one item united. -/
def unite (es : Array Entry) : Array Entry :=
  (es.qsort fun a b => a.item < b.item).foldl
    (fun out e =>
      match out.back? with
      | some b =>
        if b.item == e.item then
          out.pop.push ⟨b.item, b.ahead ||| e.ahead, max b.reserved e.reserved⟩
        else out.push e
      | none => out.push e)
    #[]

/-- The state of a kernel: the closure over the rules that may begin, the tokens that may come
next, and the words that are no names here. -/
def State.ofKernel (t : Table) (kernel : Array Entry) : State := Id.run do
  let g := t.grammar
  let rules := g.symbols.size - g.tokenCount
  let mut follow := Array.replicate rules 0
  let mut followReserved := Array.replicate rules 0
  let mut valid := 0
  for e in kernel do
    let it := t.items[e.item]!
    match it.next with
    | none => valid := valid ||| e.ahead
    | some s =>
      valid := valid ||| t.first[s]!
      if s ≥ g.tokenCount then
        let (ahead, res) := match t.items[it.after]!.next with
          | some y => (t.first[y]!, t.firstReserved[y]!)
          | none => (e.ahead, e.reserved)
        for o in t.openings[s]! do
          let m := o.rule - g.tokenCount
          follow := follow.modify m (· ||| o.ahead ||| if o.passes then ahead else 0)
          followReserved := followReserved.modify m
            (max (max o.reserved (if o.passes then res else 0)) ·)
  for (lhs, _) in t.empties do valid := valid ||| follow[lhs - g.tokenCount]!
  for x in g.extras do valid := valid ||| (1 <<< x)
  -- the largest set of reserved words among the items that expect a name
  let mut set : Option Nat := none
  let higher (a : Option Nat) (b : Nat) : Option Nat := some (max (a.getD 0) b)
  if g.reserved.size > 0 && valid.testBit g.word then
    for e in kernel do
      let it := t.items[e.item]!
      if it.next == some g.word then set := higher set it.reserved
      else if it.next.isNone && e.ahead.testBit g.word then set := higher set e.reserved
    for lhs in [g.tokenCount : g.symbols.size] do
      if follow[lhs - g.tokenCount]! != 0 then
        for p in g.productions[lhs]! do
          if let s :: _ := p.steps then
            if s.symbol == g.word then set := higher set s.reserved
  let reserved := match set with
    | some n => g.reserved.getD n []
    | none => []
  return ⟨kernel, follow, followReserved, valid, reserved⟩

namespace Automaton

/-- The state of a kernel, added when new. -/
def intern (a : Automaton) (kernel : Array Entry) : Nat × Automaton :=
  match a.known[kernel]? with
  | some s => (s, a)
  | none =>
    let s := a.states.size
    let { table, states, known, gotos, actions } := a
    (s, ⟨table, states.push (.ofKernel table kernel), known.insert kernel s, gotos, actions⟩)

/-- The automaton at the start of a text. -/
def start (t : Table) : Automaton := ((⟨t, #[], {}, {}, {}⟩ : Automaton).intern #[⟨0, 1, 0⟩]).2

/-- The items behind `x` in a state. -/
def advance (t : Table) (s : State) (x : Nat) : Array Entry := Id.run do
  let g := t.grammar
  let mut out : Array Entry := #[]
  for e in s.kernel do
    let it := t.items[e.item]!
    if it.next == some x then out := out.push ⟨it.after, e.ahead, e.reserved⟩
  for (lhs, after) in t.byFirst[x]! do
    let ahead := s.follow[lhs - g.tokenCount]!
    if ahead != 0 then out := out.push ⟨after, ahead, s.followReserved[lhs - g.tokenCount]!⟩
  return unite out

/-- No state: what `goto` answers when nothing expects the symbol. -/
def nowhere : Nat := 1000000000

/-- The state after symbol `x` in state `s`. -/
def goto (a : Automaton) (s x : Nat) : Nat × Automaton :=
  let key := s * a.table.grammar.symbols.size + x
  match a.gotos[key]? with
  | some r => (r, a)
  | none =>
    let entries := advance a.table a.states[s]! x
    if entries.isEmpty then
      let { table, states, known, gotos, actions } := a
      (nowhere, ⟨table, states, known, gotos.insert key nowhere, actions⟩)
    else
      let (r, a) := a.intern entries
      let { table, states, known, gotos, actions } := a
      (r, ⟨table, states, known, gotos.insert key r, actions⟩)

/-! ## Actions -/

/-- The completed productions that may be reduced on a token, with the precedence and the sides
of the group that won. -/
structure Reductions where
  actions : Array Action := #[]
  level : Level := .none
  rules : List Nat := []
  left : Bool := false
  right : Bool := false
  neither : Bool := false

/-- Adds a completed item: a lower precedence is passed over, a higher one displaces the rest. -/
def Reductions.add (t : Table) (r : Reductions) (it : Item) (action : Action) : Reductions :=
  let mark (r : Reductions) : Reductions :=
    { r with
      actions := r.actions.push action
      level := it.level
      rules := if r.rules.contains it.lhs then r.rules else it.lhs :: r.rules
      left := r.left || it.side == some .left
      right := r.right || it.side == some .right
      neither := r.neither || it.side == none }
  if r.actions.isEmpty then mark r
  else match t.compareLevels it.level [it.lhs] r.level r.rules with
    | .greater => mark {}
    | .same => mark r
    | .less => r

/-- The reductions of a state on a token. -/
def reductions (t : Table) (s : State) (token : Nat) : Reductions := Id.run do
  let g := t.grammar
  let mut out : Reductions := {}
  for (lhs, p) in t.empties do
    if (s.follow[lhs - g.tokenCount]!).testBit token then
      out := out.add t { (default : Item) with lhs := lhs } (.reduce p)
  for e in s.kernel do
    let it := t.items[e.item]!
    if it.next.isNone && e.ahead.testBit token then
      out := out.add t it (if it.lhs == 0 then .accept else .reduce it.production)
  return out

/-- The items of a state that are under way and may go on with `token`, and the completed ones
that it may follow. -/
def contenders (t : Table) (s : State) (token : Nat) : Array Item × Array Item := Id.run do
  let mut going : Array Item := #[]
  let mut done : Array Item := #[]
  for e in s.kernel do
    let it := t.items[e.item]!
    match it.next with
    | some x => if it.dot > 0 && (t.first[x]!).testBit token then going := going.push it
    | none => if e.ahead.testBit token then done := done.push it
  return (going, done)

/-- Settles between shifting `token` and the reductions. A repetition reduces; otherwise the
higher precedence wins, then the side to which the operators group; what is left is ambiguous. -/
def settle (t : Table) (s : State) (token target : Nat) (r : Reductions) : Array Action := Id.run do
  let (going, done) := contenders t s token
  let all := going ++ done
  if let some one := all[0]? then
    if (t.grammar.symbols[one.lhs]!).auxiliary && all.all (·.lhs == one.lhs) then
      return r.actions.push (.shift target true)
  let mut less := false
  let mut more := false
  for it in going do
    match t.compareLevels it.level [it.lhs] r.level r.rules with
    | .greater => more := true
    | .less => less := true
    | .same => pure ()
  if more && !less then return #[.shift target false]
  if less && !more then return r.actions
  if !less && !more then
    if r.left && !r.neither && !r.right then return r.actions
    if r.right && !r.neither && !r.left then return #[.shift target false]
  return r.actions.push (.shift target false)

/-- What to do on `token` in state `s`: nothing when the token is wrong there. -/
def actionsOn (a : Automaton) (s token : Nat) : Array Action × Automaton :=
  let key := s * a.table.grammar.symbols.size + token
  match a.actions[key]? with
  | some r => (r, a)
  | none =>
    if !(a.states[s]!).valid.testBit token then (#[], a)
    else
      let (target, a) := a.goto s token
      let state := a.states[s]!
      let r := reductions a.table state token
      let out :=
        if target == nowhere then
          if r.actions.isEmpty && a.table.grammar.extras.contains token then #[.extra]
          else r.actions
        else if r.actions.isEmpty then #[.shift target false]
        else settle a.table state token target r
      let { table, states, known, gotos, actions } := a
      (out, ⟨table, states, known, gotos, actions.insert key out⟩)

end Automaton

end SourceAtlas.Grammar
