/-!
# Token patterns

Sets of characters and the regular patterns over them that spell the tokens of a grammar, and
their compilation into a nondeterministic automaton. A pattern is read left to right; the
automaton's states either consume one character, branch without consuming, or accept a token.
-/

namespace SourceAtlas.Grammar

/-! ## Character sets -/

/-- A set of code points, as a list of closed intervals. -/
structure CharSet where
  ranges : List (Nat × Nat)
  deriving Inhabited

namespace CharSet

def contains (s : CharSet) (c : Nat) : Bool :=
  s.ranges.any fun r => r.1 ≤ c && c ≤ r.2

def single (c : Char) : CharSet := ⟨[(c.toNat, c.toNat)]⟩

def range (a b : Char) : CharSet := ⟨[(a.toNat, b.toNat)]⟩

/-- The characters of a text. -/
def of (s : String) : CharSet := ⟨s.toList.map fun c => (c.toNat, c.toNat)⟩

def union (a b : CharSet) : CharSet := ⟨a.ranges ++ b.ranges⟩

instance : Append CharSet := ⟨union⟩

/-- Inserts an interval into a list sorted by its left ends. -/
def insertSorted (r : Nat × Nat) : List (Nat × Nat) → List (Nat × Nat)
  | [] => [r]
  | x :: xs => if r.1 ≤ x.1 then r :: x :: xs else x :: insertSorted r xs

/-- The gaps between sorted intervals, from `low` on. -/
def gaps (low : Nat) : List (Nat × Nat) → List (Nat × Nat)
  | [] => if low ≤ 0x10FFFF then [(low, 0x10FFFF)] else []
  | (a, b) :: rest =>
    if low < a then (low, a - 1) :: gaps (max low (b + 1)) rest else gaps (max low (b + 1)) rest

/-- Every code point outside the set, the null character excepted: it marks the end of the text
and belongs to no complement. -/
def compl (s : CharSet) : CharSet := ⟨gaps 1 (s.ranges.foldr insertSorted [])⟩

end CharSet

/-! ## Patterns -/

/-- A regular pattern. -/
inductive Pattern where
  | empty
  | set (s : CharSet)
  | seq (a b : Pattern)
  | alt (a b : Pattern)
  | star (a : Pattern)
  deriving Inhabited

namespace Pattern

/-- The pattern that spells a text. -/
def text (s : String) : Pattern :=
  s.toList.foldr (fun c p => .seq (.set (.single c)) p) .empty

def sequence (ps : List Pattern) : Pattern := ps.foldr .seq .empty

def oneOf : List Pattern → Pattern
  | [] => .empty
  | [p] => p
  | p :: ps => .alt p (oneOf ps)

def plus (p : Pattern) : Pattern := .seq p (.star p)

def opt (p : Pattern) : Pattern := .alt p .empty

/-- Exactly `n` copies. -/
def copies (p : Pattern) : Nat → Pattern
  | 0 => .empty
  | n + 1 => .seq p (copies p n)

/-- At least `low` and at most `low + extra` copies. -/
def between (p : Pattern) (low : Nat) : Nat → Pattern
  | 0 => copies p low
  | extra + 1 => .alt (copies p (low + extra + 1)) (between p low extra)

end Pattern

/-! ## The automaton of a set of patterns -/

/-- A state of the token automaton. `weight` is the precedence of the token being read and
`blank` says that the character belongs to the blanks before it. -/
inductive TokenState where
  | split (a b : Nat)
  | step (s : CharSet) (next : Nat) (weight : Int) (blank : Bool)
  | accept (token : Nat) (weight : Int)
  deriving Inhabited

/-- Adds the states of a pattern that goes on at `next`; answers them with the entry state. -/
def Pattern.compile (weight : Int) (blank : Bool) :
    Pattern → Nat → Array TokenState → Array TokenState × Nat
  | .empty, next, states => (states, next)
  | .set s, next, states => (states.push (.step s next weight blank), states.size)
  | .seq a b, next, states =>
    let (states, entry) := compile weight blank b next states
    compile weight blank a entry states
  | .alt a b, next, states =>
    let (states, first) := compile weight blank a next states
    let (states, second) := compile weight blank b next states
    (states.push (.split first second), states.size)
  | .star a, next, states =>
    let loop := states.size
    let (states, entry) := compile weight blank a loop (states.push (.split 0 0))
    (states.set! loop (.split entry next), loop)

end SourceAtlas.Grammar
