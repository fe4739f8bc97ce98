import SourceAtlas.Grammar.Pattern

/-!
# Grammars

A grammar as a value: rules over literal tokens, named tokens and other rules, with the
precedences that settle which of two readings wins, the fields and displayed names that
shape the syntax tree, and the tokens that may stand anywhere.
-/

namespace SourceAtlas.Grammar

/-- How strongly a part of a rule binds. -/
inductive Level where
  | none
  | num (n : Int)
  | named (name : String)
  deriving BEq, Hashable, Inhabited

/-- The side to which operators of one level group. -/
inductive Side where
  | left
  | right
  deriving BEq, Hashable, Inhabited

/-- The name under which a part appears in the tree, and whether it counts as a named node. -/
structure Display where
  name : String
  named : Bool
  deriving BEq, Hashable, Inhabited

/-- A grammar rule. `rep1` is one or more copies. -/
inductive Rule where
  | blank
  | lit (text : String)
  | ref (name : String)
  | seq (a b : Rule)
  | alt (a b : Rule)
  | rep1 (a : Rule)
  | field (name : String) (a : Rule)
  | display (shown : Display) (a : Rule)
  | prec (level : Level) (side : Option Side) (a : Rule)
  | dynamic (weight : Int) (a : Rule)
  | reserved (set : Nat) (a : Rule)
  deriving BEq, Hashable, Inhabited

/-- A rule's or token's name stands for a use of it. -/
instance : Coe String Rule := ⟨.ref⟩

namespace Rule

/-- The parts one after the other. -/
def all : List Rule → Rule
  | [] => .blank
  | [r] => r
  | r :: rs => .seq r (all rs)

/-- Any one of the parts. -/
def any : List Rule → Rule
  | [] => .blank
  | [r] => r
  | r :: rs => .alt r (any rs)

def opt (r : Rule) : Rule := .alt r .blank

def rep (r : Rule) : Rule := .alt (.rep1 r) .blank

/-- `r` under a name of its own in the tree. -/
def named (r : Rule) (name : String) : Rule := .display ⟨name, true⟩ r

/-- `r` shown in the tree as the bare token `name`. -/
def shown (r : Rule) (name : String) : Rule := .display ⟨name, false⟩ r

def level (name : String) (r : Rule) : Rule := .prec (.named name) none r

def leftAt (name : String) (r : Rule) : Rule := .prec (.named name) (some .left) r

def rightAt (name : String) (r : Rule) : Rule := .prec (.named name) (some .right) r

def left (r : Rule) : Rule := .prec (.num 0) (some .left) r

def right (r : Rule) : Rule := .prec (.num 0) (some .right) r

/-- One or more copies with a separator between them. -/
def sepBy1 (sep r : Rule) : Rule := .seq r (rep (.seq sep r))

def commaSep1 (r : Rule) : Rule := sepBy1 (.lit ",") r

def commaSep (r : Rule) : Rule := opt (commaSep1 r)

/-- The alternatives at the top of a rule. -/
def alternatives : Rule → List Rule
  | .alt a b => alternatives a ++ alternatives b
  | r => [r]

end Rule

/-- A token that has a name: a pattern or a fixed text. A token that is `glued` must follow its
predecessor without blanks; `weight` is its precedence against other tokens. -/
structure Token where
  name : String
  pattern : Pattern
  text : Option String := none
  weight : Int := 0
  glued : Bool := false
  named : Bool := true
  deriving Inhabited

namespace Token

/-- A named token with a fixed text. -/
def word (name text : String) : Token := ⟨name, .text text, some text, 0, false, true⟩

end Token

/-- An entry of a precedence order: a level by its name, or every part of a rule. -/
inductive Rank where
  | level (name : String)
  | rule (name : String)
  deriving BEq, Inhabited

/-- A grammar. The first rule is the start; `contextual` tokens are recognised by a scanner that
looks at their surroundings; `extras` may stand between any two tokens; `blanks` separate tokens;
a rule in `inlined` is replaced by its alternatives wherever it is used; a rule in `supertypes`
groups others and has no node of its own. `reserved` lists the sets of words that are no names,
the default first. -/
structure Definition where
  rules : List (String × Rule)
  tokens : List Token
  contextual : List String
  extras : List String
  blanks : CharSet
  word : String
  reserved : List (List String)
  inlined : List String
  supertypes : List String
  orders : List (List Rank)

end SourceAtlas.Grammar
