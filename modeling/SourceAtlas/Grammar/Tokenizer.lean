import Std.Data.HashMap
import SourceAtlas.Grammar.Production

/-!
# Recognising tokens

Finds the token at a place of the text, given which tokens are allowed there: blanks are skipped,
the longest token wins, and of tokens of one length the one of higher precedence, then the fixed
text over the pattern, then the earlier one. A token of higher precedence that is complete stops
the search for longer ones of lower precedence.
-/

namespace SourceAtlas.Grammar

open Std (HashMap)

/-- The automaton of all tokens of a grammar. `entry` gives where each token starts, `owner` the
token that each state belongs to, and `rank` the place of a token among equals. -/
structure TokenNet where
  states : Array TokenState
  owner : Array Nat
  entry : Array (Option Nat)
  rank : Array Nat
  deriving Inhabited

/-- The automaton of the tokens of a grammar: each is preceded by blanks unless it is glued to
its predecessor. -/
def TokenNet.ofGrammar (g : Expansion) (blanks : CharSet) : TokenNet := Id.run do
  let mut states : Array TokenState := #[]
  let mut owner : Array Nat := #[]
  let mut entry : Array (Option Nat) := #[]
  let mut rank : Array Nat := #[]
  for i in [0 : g.tokenCount] do
    match g.tokens[i]! with
    | none =>
      entry := entry.push none
      rank := rank.push 0
    | some t =>
      let accept := states.size
      states := states.push (.accept i t.weight)
      let (more, e) := t.pattern.compile t.weight false accept states
      states := more
      let mut e := e
      unless t.glued do
        let (more, b) := (Pattern.star (.set blanks)).compile 0 true e states
        states := more
        e := b
      owner := owner ++ Array.replicate (states.size - owner.size) i
      entry := entry.push (some e)
      rank := rank.push ((if t.text.isSome then 2 else 0) + (if t.glued then 1 else 0))
  return ⟨states, owner, entry, rank⟩

/-- The consuming and accepting states reachable from `work` without reading a character. -/
def TokenNet.reach (n : TokenNet) : Nat → List Nat → Array Nat → Array Nat
  | 0, _, out => out
  | _, [], out => out
  | fuel + 1, s :: work, out =>
    match n.states[s]! with
    | .split a b => reach n fuel (a :: b :: work) out
    | _ => reach n fuel work (if out.contains s then out else out.push s)

/-- A set of automaton states. `done` is the token complete here, `blank` whether blanks may
still follow. -/
structure TokenSet where
  states : Array Nat
  done : Option (Nat × Int)
  blank : Bool
  deriving Inhabited

/-- The sets met so far and the moves between them: a move answers `0` for none, otherwise twice
the target plus one, plus one more for a blank. -/
structure TokenCache where
  net : TokenNet
  sets : Array TokenSet := #[]
  known : HashMap (Array Nat) Nat := {}
  starts : HashMap Nat Nat := {}
  moves : HashMap Nat Nat := {}
  deriving Inhabited

namespace TokenCache

/-- Whether a complete token yields to another one complete at the same place. -/
def prefers (n : TokenNet) (a b : Nat × Int) : Bool :=
  if a.2 != b.2 then b.2 < a.2
  else if n.rank[a.1]! != n.rank[b.1]! then n.rank[b.1]! < n.rank[a.1]!
  else a.1 < b.1

def describe (n : TokenNet) (states : Array Nat) : TokenSet := Id.run do
  let mut done : Option (Nat × Int) := none
  let mut blank := false
  for s in states do
    match n.states[s]! with
    | .accept t w =>
      match done with
      | none => done := some (t, w)
      | some d => if prefers n (t, w) d then done := some (t, w)
    | .step _ _ _ b => blank := blank || b
    | .split _ _ => pure ()
  return ⟨states, done, blank⟩

def intern (c : TokenCache) (states : Array Nat) : Nat × TokenCache :=
  match c.known[states]? with
  | some i => (i, c)
  | none =>
    let i := c.sets.size
    let { net, sets, known, starts, moves } := c
    (i, ⟨net, sets.push (describe net states), known.insert states i, starts, moves⟩)

/-- Reaches without reading from `work`, in increasing order. -/
def closed (n : TokenNet) (work : List Nat) : Array Nat :=
  (n.reach (n.states.size * (work.length + 2)) work #[]).qsort (· < ·)

/-- The set in which the tokens `allowed` may begin. -/
def startOf (c : TokenCache) (allowed : Nat) : Nat × TokenCache :=
  match c.starts[allowed]? with
  | some i => (i, c)
  | none =>
    let work := (List.range c.net.entry.size).filterMap fun t =>
      if allowed.testBit t then c.net.entry[t]! else none
    let (i, c) := c.intern (closed c.net work)
    let { net, sets, known, starts, moves } := c
    (i, ⟨net, sets, known, starts.insert allowed i, moves⟩)

/-- The move on a character, found from the states of a set. -/
def findMove (n : TokenNet) (s : TokenSet) (ch : Nat) : Option (Array Nat × Bool) := Id.run do
  let mut targets : Array Nat := #[]
  let mut weight : Int := 0
  let mut blank := true
  for st in s.states do
    if let .step set next w b := n.states[st]! then
      if set.contains ch then
        weight := if targets.isEmpty then w else max weight w
        blank := blank && b
        targets := targets.push next
  if targets.isEmpty then return none
  if let some (token, w) := s.done then
    if weight < w then return none
    if weight == w && (blank || (s.blank && !targets.any fun t => n.owner[t]! == token)) then
      return none
  return some (closed n targets.toList, blank)

/-- The move from a set on a character. -/
def move (c : TokenCache) (i ch : Nat) : Nat × TokenCache :=
  let key := i * 0x110000 + ch
  match c.moves[key]? with
  | some r => (r, c)
  | none =>
    match findMove c.net c.sets[i]! ch with
    | none =>
      let { net, sets, known, starts, moves } := c
      (0, ⟨net, sets, known, starts, moves.insert key 0⟩)
    | some (states, blank) =>
      let (j, c) := c.intern states
      let r := 2 * j + (if blank then 2 else 1)
      let { net, sets, known, starts, moves } := c
      (r, ⟨net, sets, known, starts, moves.insert key r⟩)

/-- Reads on from `pos` in set `i`; `begin` is where the token starts and `best` the longest
token so far. -/
def scan (text : Array Nat) (endAllowed : Bool) :
    Nat → TokenCache → Nat → Nat → Nat → Bool → Option (Nat × Nat × Nat) →
    Option (Nat × Nat × Nat) × TokenCache
  | 0, c, _, _, _, _, best => (best, c)
  | fuel + 1, c, i, pos, begin, inBlanks, best =>
    let best := match (c.sets[i]!).done with
      | some (t, _) => some (t, begin, pos)
      | none => best
    if h : pos < text.size then
      let (r, c) := c.move i text[pos]
      if r == 0 then (best, c)
      else
        let blank := r % 2 == 0
        scan text endAllowed fuel c ((r - 1) / 2) (pos + 1) (if blank then pos + 1 else begin)
          (inBlanks && blank) best
    else if inBlanks && endAllowed then (some (0, pos, pos), c)
    else (best, c)

/-- The token at `pos`: its number and the places where it starts and stops. -/
def next (c : TokenCache) (allowed : Nat) (text : Array Nat) (pos : Nat) :
    Option (Nat × Nat × Nat) × TokenCache :=
  let (i, c) := c.startOf allowed
  scan text (allowed.testBit 0) (text.size + 1 - pos) c i pos pos true none

end TokenCache

end SourceAtlas.Grammar
