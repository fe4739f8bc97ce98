import SourceAtlas.Grammar.Automaton
import SourceAtlas.Grammar.Tokenizer
import SourceAtlas.Grammar.Stack

/-!
# Parsing

Reads a text with a grammar whose ambiguities are settled late: where the automaton allows several
actions, all readings are followed side by side. A reading that meets a token it cannot use ends;
readings that come to the same state unite; at most six are kept. The text is in the language when
one reading comes to its end, and the result is then the preferred tree.

With the modules it uses this stands for the parser library that `parse_source` calls.
-/

namespace SourceAtlas.Grammar

/-- Finds a token that depends on its surroundings: from the names of the contextual tokens
allowed, the text and a place, a token's name with the places where it starts and stops. -/
abbrev ContextScan := (String → Bool) → Array Nat → Nat → Option (String × Nat × Nat)

/-- A language: its grammar written out, with the scanner of its contextual tokens. -/
structure Language where
  table : Table
  net : TokenNet
  scan : ContextScan

instance : Inhabited Language := ⟨⟨default, default, fun _ _ _ => none⟩⟩

/-- The language of a grammar. -/
def Definition.language (g : Definition) (scan : ContextScan) : Language :=
  let e := g.expand
  ⟨e.table g.orders, .ofGrammar e g.blanks, scan⟩

/-- What has been computed of a language: its states and token sets met so far. It speeds up
parsing and changes no result. -/
structure Memory where
  automaton : Automaton
  tokens : TokenCache
  deriving Inhabited

def Language.memory (l : Language) : Memory :=
  ⟨.start l.table, { net := l.net }⟩

/-! ## Readings -/

inductive Status where
  | active
  | stuck
  | ended
  deriving BEq, Inhabited

/-- A reading in progress: the top of its stack. -/
structure Reading where
  vertex : Nat
  status : Status
  deriving Inhabited

/-- A token as read: its symbol and place, and whether it is a keyword that could also be a
name. -/
structure Lookahead where
  symbol : Nat
  start : Nat
  stop : Nat
  keyword : Bool
  deriving Inhabited

/-- All readings of a text in progress. -/
structure Session where
  language : Language
  text : Array Nat
  memory : Memory
  vertices : Vertices
  readings : Array Reading
  finished : Option ParseTree
  deriving Inhabited

abbrev ParseM := StateM Session

namespace Session

/-! ## Tokens -/

/-- Runs a step of the automaton. -/
def withAutomaton {α : Type} (f : Automaton → α × Automaton) : ParseM α :=
  modifyGet fun s =>
    let { language, text, memory := ⟨automaton, tokens⟩, vertices, readings, finished } := s
    let (r, automaton) := f automaton
    (r, ⟨language, text, ⟨automaton, tokens⟩, vertices, readings, finished⟩)

def withTokens {α : Type} (f : TokenCache → α × TokenCache) : ParseM α :=
  modifyGet fun s =>
    let { language, text, memory := ⟨automaton, tokens⟩, vertices, readings, finished } := s
    let (r, tokens) := f tokens
    (r, ⟨language, text, ⟨automaton, tokens⟩, vertices, readings, finished⟩)

def actionsOn (state symbol : Nat) : ParseM (Array Action) :=
  withAutomaton fun a => a.actionsOn state symbol

/-- The tokens that the pattern tokenizer looks for in a state: keywords count as names. -/
def patternTokens (g : Expansion) (valid : Nat) : Nat :=
  let keywords := g.keywords.fold (fun n _ k => n ||| (1 <<< k)) 0
  if valid &&& keywords == 0 then valid
  else (valid ^^^ (valid &&& keywords)) ||| (1 <<< g.word)

/-- The text between two places. -/
def slice (text : Array Nat) (start stop : Nat) : String :=
  String.ofList ((text.extract start stop).toList.map Char.ofNat)

/-- Reads the next token at `place` in a state, if any token that the state allows is there. -/
def readToken (state place : Nat) : ParseM (Option Lookahead) := do
  let s ← get
  let g := s.language.table.grammar
  let info := (s.memory.automaton.states)[state]!
  let allowed := fun n =>
    match g.contextual.find? (·.1 == n) with
    | some (_, t) => info.valid.testBit t
    | none => false
  let context :=
    if g.contextual.any fun c => info.valid.testBit c.2 then s.language.scan allowed s.text place
    else none
  match context with
  | some (name, start, stop) =>
    match g.contextual.find? (·.1 == name) with
    | some (_, t) => return some ⟨t, start, stop, false⟩
    | none => return none
  | none =>
    let text := s.text
    match ← withTokens fun c => c.next (patternTokens g info.valid) text place with
    | none => return none
    | some (t, start, stop) =>
      if t != g.word then return some ⟨t, start, stop, false⟩
      match g.keywords[slice text start stop]? with
      | none => return some ⟨t, start, stop, false⟩
      | some k =>
        let usable := !(← actionsOn state k).isEmpty
        if usable || info.reserved.contains k then return some ⟨k, start, stop, true⟩
        return some ⟨t, start, stop, false⟩

/-! ## Moves -/

def topOf (s : Session) (i : Nat) : Vertex := s.vertices[(s.readings[i]!).vertex]!

def setStatus (i : Nat) (status : Status) : ParseM Unit :=
  modify fun s => { s with readings := s.readings.modify i fun r => { r with status := status } }

/-- Puts a tree on top of a vertex; answers the new vertex. -/
def pushTree (below state : Nat) (tree : ParseTree) : ParseM Nat :=
  modifyGet fun s =>
    let { language, text, memory, vertices, readings, finished } := s
    let (vertices, v) := vertices.push below state tree
    (v, ⟨language, text, memory, vertices, readings, finished⟩)

/-- Two active readings in the same state at the same place. -/
def mergeable (s : Session) (i j : Nat) : Bool :=
  let a := s.readings[i]!
  let b := s.readings[j]!
  a.status == .active && b.status == .active &&
    (s.vertices[a.vertex]!).state == (s.vertices[b.vertex]!).state &&
    (s.vertices[a.vertex]!).place == (s.vertices[b.vertex]!).place

/-- Unites reading `j` into reading `i` when they are mergeable. -/
def merge (i j : Nat) : ParseM Bool := do
  if mergeable (← get) i j then
    modify fun s =>
      let { language, text, memory, vertices, readings, finished } := s
      let vertices := vertices.unite (readings[i]!).vertex (readings[j]!).vertex
      ⟨language, text, memory, vertices, readings.eraseIdx! j, finished⟩
    return true
  else return false

/-- The trees before the trailing extras, and those extras. -/
def splitExtras (trees : List ParseTree) : List ParseTree × List ParseTree :=
  let back := trees.reverse
  ((back.dropWhile (·.extra)).reverse, (back.takeWhile (·.extra)).reverse)

/-- Of several sequences of children for one node, the preferred one with its extras. -/
def chooseChildren (symbol : Nat) (place : Nat) :
    List (List ParseTree) → List ParseTree × List ParseTree
  | [] => ([], [])
  | w :: ways =>
    ways.foldl
      (fun best way =>
        let new := splitExtras way
        if (ParseTree.build symbol 0 place 0 best.1).replaces
            (ParseTree.build symbol 0 place 0 new.1) then new
        else best)
      (splitExtras w)

/-- Reduces a production on reading `i`: each place where its children begin becomes a new
reading. Answers the first of them that was not united with an older one. -/
def reduce (i production : Nat) : ParseM (Option Nat) := do
  let s ← get
  let before := s.readings.size
  let stopped := (s.readings.filter (·.status == .ended)).size
  let shape := s.language.table.shapes[production]!
  let place := (topOf s i).place
  for (base, ways) in s.vertices.pop (s.readings[i]!).vertex shape.count do
    let j := (← get).readings.size
    if j ≤ 10 + stopped then
      let (children, extras) := chooseChildren shape.lhs place ways
      let node := ParseTree.build shape.lhs production place shape.weight children
      let below := ((← get).vertices[base]!).state
      let target ← withAutomaton fun a => a.goto below shape.lhs
      let mut v ← pushTree base target node
      for e in extras do v ← pushTree v target e
      modify fun s => { s with readings := s.readings.push ⟨v, .active⟩ }
      for k in [0 : j] do
        if k != i then
          if ← merge k j then break
  let after := (← get).readings.size
  return if before < after then some before else none

/-- The whole text has been read by reading `i`: its trees compete for the result. -/
def accept (i : Nat) : ParseM Unit := do
  let s ← get
  let ways := s.vertices.popAll (s.vertices.size * 4) [((s.readings[i]!).vertex, [])]
  for trees in ways do
    if let some root := trees.find? (!·.extra) then
      let children := trees.flatMap fun t => if t.extra then [t] else t.children
      let tree := match root with
        | .node symbol p start stop w _ => ParseTree.node symbol p start stop w children
        | t => t
      modify fun s =>
        match s.finished with
        | none => { s with finished := some tree }
        | some old => if old.replaces tree then { s with finished := some tree } else s
  setStatus i .ended

/-- Performs the actions of a state on a token in order. A shift moves the reading itself on and
ends the list; answers whether that happened, the last new reading, and whether any reduction was
made. -/
def perform (i : Nat) (la : Lookahead) :
    List Action → Option Nat → Bool → ParseM (Bool × Option Nat × Bool)
  | [], last, reduced => return (false, last, reduced)
  | .shift _ true :: rest, last, reduced => perform i la rest last reduced
  | .shift target false :: _, last, reduced => do
    let v := ((← get).readings[i]!).vertex
    let v ← pushTree v target (.token la.symbol la.start la.stop false)
    modify fun s => { s with readings := s.readings.modify i fun r => { r with vertex := v } }
    return (true, last, reduced)
  | .extra :: _, last, reduced => do
    let s ← get
    let v := (s.readings[i]!).vertex
    let v ← pushTree v (s.vertices[v]!).state (.token la.symbol la.start la.stop true)
    modify fun s => { s with readings := s.readings.modify i fun r => { r with vertex := v } }
    return (true, last, reduced)
  | .accept :: _, last, reduced => do
    accept i
    return (true, last, reduced)
  | .reduce p :: rest, last, _ => do
    let r ← reduce i p
    perform i la rest (r.or last) true

/-- Carries reading `i` over one token: reductions replace the reading by what they lead to, until
the token is shifted or cannot be used. -/
def advance (i : Nat) : Nat → Lookahead → ParseM Unit
  | 0, _ => setStatus i .stuck
  | fuel + 1, la => do
    let state := (topOf (← get) i).state
    let actions ← actionsOn state la.symbol
    let (moved, last, reduced) ← perform i la actions.toList none false
    if moved then return ()
    match last with
    | some j =>
      modify fun s =>
        { s with readings := (s.readings.set! i s.readings[j]!).eraseIdx! j }
      advance i fuel la
    | none =>
      if reduced then setStatus i .ended
      else
        let s ← get
        let g := s.language.table.grammar
        let reserved := (s.memory.automaton.states[state]!).reserved
        if la.keyword && !reserved.contains la.symbol &&
            !(← actionsOn state g.word).isEmpty then
          advance i fuel { la with symbol := g.word, keyword := false }
        else setStatus i .stuck

/-- Reads a token for reading `i` and carries the reading over it. -/
def step (i : Nat) : ParseM Unit := do
  let top := topOf (← get) i
  match ← readToken top.state top.place with
  | none => setStatus i .stuck
  | some la => advance i ((← get).text.size * 8 + 10000) la

/-! ## Rounds -/

/-- Advances reading `i` until it is ahead of the place `last`; answers the new last place. -/
def advanceReading (i : Nat) : Nat → Nat → ParseM Nat
  | 0, last => return last
  | fuel + 1, last => do
    if ((← get).readings[i]!).status != .active then return last
    step i
    let place := (topOf (← get) i).place
    if last < place || (0 < i && place == last) then return place
    advanceReading i fuel last

/-- Advances every reading, the new ones included. -/
def advanceAll : Nat → Nat → Nat → ParseM Nat
  | 0, _, last => return last
  | fuel + 1, i, last => do
    if i < (← get).readings.size then
      let last ← advanceReading i ((← get).text.size * 4 + 10000) last
      advanceAll fuel (i + 1) last
    else return last

/-- What to do about two readings, an earlier and a later one: keep one of them, unite them or put
them in order. -/
inductive Verdict where
  | dropLater
  | dropEarlier
  | unite
  | exchange

/-- Compares the status and weight of an earlier reading with those of a later one. -/
def judge (earlier later : Status × Int) : Verdict :=
  if earlier.1 == .active && later.1 != .active then .dropLater
  else if earlier.1 != .active && later.1 == .active then .dropEarlier
  else if earlier.2 < later.2 then .exchange
  else .unite

/-- The status and weight of a reading. -/
def standing (s : Session) (i : Nat) : Status × Int :=
  ((s.readings[i]!).status, (topOf s i).weight)

/-- Compares reading `i` with the earlier ones, from `j` on, by the standing that it had at the
beginning. Answers the next reading to look at. -/
def condenseOne (later : Status × Int) : Nat → Nat → Nat → ParseM Nat
  | 0, _, i => return i + 1
  | fuel + 1, j, i => do
    if i ≤ j then return i + 1
    match judge (standing (← get) j) later with
    | .dropLater =>
      modify fun s => { s with readings := s.readings.eraseIdx! i }
      return i
    | .dropEarlier =>
      modify fun s => { s with readings := s.readings.eraseIdx! j }
      condenseOne later fuel j (i - 1)
    | .unite => if ← merge j i then return i else condenseOne later fuel (j + 1) i
    | .exchange =>
      if ← merge j i then return i
      else
        modify fun s =>
          { s with readings := (s.readings.set! i s.readings[j]!).set! j s.readings[i]! }
        condenseOne later fuel (j + 1) i

/-- Compares all pairs of readings. -/
def condenseFrom : Nat → Nat → ParseM Unit
  | 0, _ => return ()
  | fuel + 1, i => do
    if i < (← get).readings.size then
      if ((← get).readings[i]!).status == .ended then
        modify fun s => { s with readings := s.readings.eraseIdx! i }
        condenseFrom fuel i
      else condenseFrom fuel (← condenseOne (standing (← get) i) 1000 0 i)

/-- Drops ended, beaten and surplus readings. -/
def condense : ParseM Unit := do
  condenseFrom 10000 0
  modify fun s => { s with readings := s.readings.extract 0 6 }

/-- Rounds of advancing and condensing until no reading can go on. -/
def rounds : Nat → Nat → ParseM Unit
  | 0, _ => return ()
  | fuel + 1, last => do
    let last ← advanceAll 100000 0 last
    condense
    if (← get).readings.any (·.status == .active) then rounds fuel last

end Session

/-- Parses a text given as code points, with what is remembered of the language; answers the tree,
or `none` when the text is not in the language, and what to remember. -/
def Language.parseWith (l : Language) (m : Memory) (text : Array Nat) : Option ParseTree × Memory :=
  let begin : Session :=
    { language := l, text := text, memory := m, vertices := #[⟨0, 0, 0, #[]⟩]
      readings := #[⟨0, .active⟩], finished := none }
  let (_, done) := (Session.rounds (8 * text.size + 1000) 0).run begin
  (done.finished, done.memory)

/-- Parses a text given as code points. -/
def Language.parse (l : Language) (text : Array Nat) : Option ParseTree :=
  (l.parseWith l.memory text).1

end SourceAtlas.Grammar
