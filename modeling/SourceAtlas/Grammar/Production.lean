import Std.Data.HashMap
import Std.Data.HashSet
import SourceAtlas.Grammar.Rule

/-!
# Productions

A grammar's rules written out as plain sequences of symbols. Choices become separate productions,
repetitions become auxiliary rules that split in two, inlined rules are replaced by their
alternatives, and precedences, displayed names and fields move onto the steps.

Symbols are numbers: the end of the text is `0`, then the tokens, then the rules, then the
auxiliary rules.
-/

namespace SourceAtlas.Grammar

open Std (HashMap HashSet)

/-! ## Steps and productions -/

/-- One symbol of a production, with the precedence in force after it. -/
structure Step where
  symbol : Nat
  level : Level := .none
  side : Option Side := none
  display : Option Display := none
  field : Option String := none
  reserved : Nat := 0
  deriving BEq, Hashable, Inhabited

/-- A rule's symbol and one sequence of steps for it. `weight` prefers or disfavours the trees
built from it. -/
structure Production where
  lhs : Nat
  steps : List Step
  weight : Int
  deriving BEq, Hashable, Inhabited

/-! ## Repetitions -/

/-- The auxiliary rules found so far, by what they repeat. -/
structure Repetitions where
  known : HashMap Rule String := {}
  rules : Array (String × Rule) := #[]

/-- Replaces each repetition by a reference to the auxiliary rule for what it repeats. -/
def Rule.nameRepetitions (owner : String) : Rule → Repetitions → Rule × Repetitions
  | .rep1 a, found =>
    let (a, found) := nameRepetitions owner a found
    match found.known[a]? with
    | some name => (.ref name, found)
    | none =>
      let name := owner ++ " repeat " ++ toString found.rules.size
      (.ref name, ⟨found.known.insert a name,
        found.rules.push (name, .alt (.seq (.ref name) (.ref name)) a)⟩)
  | .seq a b, found =>
    let (a, found) := nameRepetitions owner a found
    let (b, found) := nameRepetitions owner b found
    (.seq a b, found)
  | .alt a b, found =>
    let (a, found) := nameRepetitions owner a found
    let (b, found) := nameRepetitions owner b found
    (.alt a b, found)
  | .field n a, found =>
    let (a, found) := nameRepetitions owner a found
    (.field n a, found)
  | .display n a, found =>
    let (a, found) := nameRepetitions owner a found
    (.display n a, found)
  | .prec l s a, found =>
    let (a, found) := nameRepetitions owner a found
    (.prec l s a, found)
  | .dynamic w a, found =>
    let (a, found) := nameRepetitions owner a found
    (.dynamic w a, found)
  | .reserved n a, found =>
    let (a, found) := nameRepetitions owner a found
    (.reserved n a, found)
  | r, found => (r, found)

/-! ## Choices and steps -/

/-- The choice-free readings of a rule. -/
def Rule.readings : Rule → List Rule
  | .seq a b => (readings a).flatMap fun x => (readings b).map fun y => .seq x y
  | .alt a b => readings a ++ readings b
  | .field n a => (readings a).map (.field n)
  | .display n a => (readings a).map (.display n)
  | .prec l s a => (readings a).map (.prec l s)
  | .dynamic w a => (readings a).map (.dynamic w)
  | .reserved n a => (readings a).map (.reserved n)
  | r => [r]

/-- What the enclosing parts of a rule say about a step. -/
structure Surroundings where
  level : Level := .none
  side : Option Side := none
  display : Option Display := none
  field : Option String := none
  reserved : Nat := 0

/-- The steps of a production under construction, last first. -/
structure Draft where
  steps : List Step := []
  weight : Int := 0

namespace Draft

/-- Leaves a part with a precedence: its last step falls back to the precedence around it. -/
def leave (level : Level) (side : Option Side) (closeLevel closeSide : Bool) (d : Draft) : Draft :=
  match d.steps with
  | [] => d
  | s :: rest =>
    { d with steps := { s with level := if closeLevel then level else s.level,
                               side := if closeSide then side else s.side } :: rest }

/-- The weight of larger size wins. -/
def weigh (w : Int) (d : Draft) : Draft :=
  if d.weight.natAbs < w.natAbs then { d with weight := w } else d

end Draft

/-- Writes a choice-free rule as steps. `atEnd` says that nothing of the rule follows. -/
def Rule.draft (symbolOf : String → Nat) (literalOf : String → Nat) :
    Rule → Surroundings → Bool → Draft → Draft
  | .lit t, c, _, d =>
    { d with steps := ⟨literalOf t, c.level, c.side, c.display, c.field, c.reserved⟩ :: d.steps }
  | .ref n, c, _, d =>
    { d with steps := ⟨symbolOf n, c.level, c.side, c.display, c.field, c.reserved⟩ :: d.steps }
  | .seq a b, c, atEnd, d =>
    draft symbolOf literalOf b c atEnd (draft symbolOf literalOf a c false d)
  | .field n a, c, atEnd, d => draft symbolOf literalOf a { c with field := some n } atEnd d
  | .display n a, c, atEnd, d => draft symbolOf literalOf a { c with display := some n } atEnd d
  | .reserved n a, c, atEnd, d => draft symbolOf literalOf a { c with reserved := n } atEnd d
  | .dynamic w a, c, atEnd, d => draft symbolOf literalOf a c atEnd (d.weigh w)
  | .prec l s a, c, atEnd, d =>
    let inner := { c with level := if l == .none then c.level else l, side := s.or c.side }
    let written := draft symbolOf literalOf a inner atEnd d
    if atEnd || written.steps.length == d.steps.length then written
    else written.leave c.level c.side (l != .none) s.isSome
  | _, _, _, d => d

/-! ## Inlining -/

/-- The steps of an inlined production in place of `s`: they take over its displayed name and field,
and the last of them its precedence where it has none of its own. -/
def Step.takeOver (s : Step) (inner : List Step) : List Step :=
  let marked := inner.map fun t =>
    { t with
      display := s.display.or t.display
      field := s.field.or t.field
      reserved := max s.reserved t.reserved }
  match marked.reverse with
  | [] => []
  | last :: before =>
    ({ last with level := if last.level == .none then s.level else last.level,
                 side := last.side.or s.side } :: before).reverse

/-- All ways to write `steps` without inlined symbols; `fuel` bounds how deep inlined rules use
each other. -/
def inlineSteps (inlined : HashMap Nat (List Production)) :
    Nat → List Step → Int → List (List Step × Int)
  | 0, steps, w => [(steps, w)]
  | fuel + 1, steps, w =>
    steps.foldr
      (fun s tails =>
        match inlined[s.symbol]? with
        | none => tails.map fun t => (s :: t.1, t.2)
        | some ps =>
          ps.flatMap fun p =>
            (inlineSteps inlined fuel (s.takeOver p.steps) p.weight).flatMap fun inner =>
              tails.map fun t =>
                (inner.1 ++ t.1, if t.2.natAbs < inner.2.natAbs then inner.2 else t.2))
      [([], w)]

/-! ## The written-out grammar -/

/-- What a symbol looks like in the tree. -/
structure SymbolInfo where
  name : String
  named : Bool
  visible : Bool
  auxiliary : Bool := false
  deriving Inhabited

/-- A grammar written out. `tokenCount` symbols are tokens; `tokens` gives the pattern of each,
`none` for the end of the text and for tokens that only the contextual scanner finds. -/
structure Expansion where
  symbols : Array SymbolInfo
  tokenCount : Nat
  tokens : Array (Option Token)
  productions : Array (List Production)
  word : Nat
  keywords : HashMap String Nat
  extras : List Nat
  contextual : List (String × Nat)
  reserved : Array (List Nat)
  start : Nat
  inlined : HashSet Nat
  deriving Inhabited

/-- The fixed texts of a rule, in order. -/
def Rule.literals : Rule → List String
  | .lit t => [t]
  | .seq a b | .alt a b => literals a ++ literals b
  | .rep1 a | .field _ a | .display _ a | .prec _ _ a | .dynamic _ a | .reserved _ a => literals a
  | _ => []

/-- A text that spells a name, so that it is recognised as a keyword. -/
def isKeyword (text : String) : Bool :=
  !text.isEmpty && text.toList.all fun c => c.isAlphanum || c == '_' || c == '$'

/-- Writes a grammar out. -/
def Definition.expand (g : Definition) : Expansion := Id.run do
  -- the tokens: the end of the text, the names, the other tokens, the fixed texts
  let wordToken := g.tokens.filter (·.name == g.word)
  let otherTokens := g.tokens.filter (·.name != g.word)
  let mut seen : HashSet String := {}
  let mut literals : Array String := #[]
  for (_, r) in g.rules do
    for t in r.literals do
      unless seen.contains t do
        seen := seen.insert t
        literals := literals.push t
  let mut tokens : Array (Option Token) := #[none]
  let mut symbols : Array SymbolInfo := #[⟨"end", true, false, false⟩]
  let mut byName : HashMap String Nat := {}
  let mut byText : HashMap String Nat := {}
  let mut keywords : HashMap String Nat := {}
  for t in wordToken ++ otherTokens do
    byName := byName.insert t.name tokens.size
    if let some text := t.text then
      if isKeyword text then keywords := keywords.insert text tokens.size
    tokens := tokens.push (some t)
    symbols := symbols.push ⟨t.name, t.named, !t.name.startsWith "_", false⟩
  for text in literals do
    byText := byText.insert text tokens.size
    if isKeyword text then keywords := keywords.insert text tokens.size
    tokens := tokens.push (some ⟨text, .text text, some text, 0, false, false⟩)
    symbols := symbols.push ⟨text, false, true, false⟩
  let mut contextual : Array (String × Nat) := #[]
  for n in g.contextual do
    match byName[n]?.or byText[n]? with
    | some s => contextual := contextual.push (n, s)
    | none =>
      byName := byName.insert n tokens.size
      contextual := contextual.push (n, tokens.size)
      tokens := tokens.push none
      symbols := symbols.push ⟨n, true, !n.startsWith "_", false⟩
  let tokenCount := tokens.size
  -- the rules and the auxiliary rules
  let mut found : Repetitions := {}
  let mut rules : Array (String × Rule) := #[]
  for (n, r) in g.rules do
    let (r, more) := r.nameRepetitions n found
    found := more
    rules := rules.push (n, r)
  for (n, _) in rules do
    byName := byName.insert n symbols.size
    symbols := symbols.push ⟨n, true, !(n.startsWith "_" || g.supertypes.contains n), false⟩
  for (n, _) in found.rules do
    byName := byName.insert n symbols.size
    symbols := symbols.push ⟨n, false, false, true⟩
  -- their productions
  let symbolOf := fun n => byName.getD n 0
  let literalOf := fun t => byText.getD t 0
  let mut productions : Array (List Production) := Array.replicate tokenCount []
  for (n, r) in rules ++ found.rules do
    let lhs := symbolOf n
    let mut known : HashSet Production := {}
    let mut out : Array Production := #[]
    for reading in r.readings do
      let d := reading.draft symbolOf literalOf {} true {}
      let p : Production := ⟨lhs, d.steps.reverse, d.weight⟩
      unless known.contains p do
        known := known.insert p
        out := out.push p
    productions := productions.push out.toList
  -- without the inlined rules
  let inlinedIds := g.inlined.map symbolOf
  let inlined : HashMap Nat (List Production) :=
    inlinedIds.foldl (fun m i => m.insert i (productions.getD i [])) {}
  let plain := productions.map fun ps =>
    ps.flatMap fun p =>
      (inlineSteps inlined 8 p.steps p.weight).map fun (steps, w) =>
        { p with steps := steps, weight := w }
  let reserved := (g.reserved.map fun set => set.map fun t => keywords.getD t 0).toArray
  return {
    symbols := symbols, tokenCount := tokenCount, tokens := tokens, productions := plain
    word := symbolOf g.word, keywords := keywords
    extras := g.extras.map symbolOf, contextual := contextual.toList, reserved := reserved
    start := tokenCount, inlined := inlinedIds.foldl (·.insert ·) {} }

end SourceAtlas.Grammar
