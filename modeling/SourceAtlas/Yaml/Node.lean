import SourceAtlas.Yaml.Implicit
import SourceAtlas.Yaml.Token

/-!
# Nodes

The nodes of a YAML document, each with its tag, read from the tokens of the text. Nodes are trees:
a collection that holds itself, through an alias of its anchor, is not read here and counts as
malformed.
-/

namespace SourceAtlas.Yaml

inductive Node where
  | scalar (tag : String) (text : List Char)
  | sequence (tag : String) (items : List Node)
  | mapping (tag : String) (entries : List (Node × Node))
  deriving Inhabited

namespace Node

def tag : Node → String
  | scalar t _ | sequence t _ | mapping t _ => t

/-- What stands where nothing is written. -/
def nothing : Node := scalar Tag.null []

end Node

/-- Tokens that are still to be read, what anchors name, and the handles of tags. An anchor whose
node is still being read names nothing yet. -/
structure Reading where
  tokens : List Token
  anchors : List (List Char × Option Node)
  handles : List (List Char × List Char)

abbrev Reader := StateT Reading (Except YamlError)

namespace Reader

def peek : Reader Token := do
  match (← get).tokens with
  | [] => return .streamEnd
  | .failure e :: _ => throw e
  | t :: _ => return t

def skip : Reader Unit := modify fun r => { r with tokens := r.tokens.drop 1 }

/-- Reads a token if it is the next. -/
def accept (t : Token) : Reader Bool := do
  if (← peek) == t then
    skip
    return true
  return false

def malformed {α : Type} : Reader α := throw .malformed

/-- The anchor and the tag in front of a node, in any order. -/
def properties : Reader (Option (List Char) × Option (Option (List Char) × List Char)) := do
  match ← peek with
  | .anchor name =>
    skip
    match ← peek with
    | .tag h s =>
      skip
      return (some name, some (h, s))
    | _ => return (some name, none)
  | .tag h s =>
    skip
    match ← peek with
    | .anchor name =>
      skip
      return (some name, some (h, s))
    | _ => return (none, some (h, s))
  | _ => return (none, none)

/-- The tag that a handle and a suffix write. -/
def tagText : Option (List Char) × List Char → Reader String
  | (none, suffix) => return String.ofList suffix
  | (some h, suffix) => do
    match (← get).handles.lookup h with
    | some start => return String.ofList (start ++ suffix)
    | none => malformed

/-- The tag of a collection. -/
def collectionTag (tag : Option String) (default : String) : String :=
  match tag with
  | none | some "!" => default
  | some t => t

/-- The tag of a scalar. -/
def scalarTag (tag : Option String) (text : List Char) (plain : Bool) : String :=
  match tag with
  | none => if plain then implicitTag text else Tag.text
  | some "!" => implicitTag text
  | some t => t

/-- Lets an anchor name a node, or holds it for the node that is about to be read. -/
def name (anchor : Option (List Char)) (n : Option Node) : Reader Unit :=
  match anchor with
  | none => return
  | some a => modify fun r => { r with anchors := (a, n) :: r.anchors }

/-- The tag of a node, if one is written. -/
def writtenTag : Option (Option (List Char) × List Char) → Reader (Option String)
  | none => return none
  | some w => return some (← tagText w)

/-- An anchor names one node only. -/
def checkAnchor : Option (List Char) → Reader Unit
  | none => return
  | some a => do
    if ((← get).anchors.lookup a).isSome then malformed

/-- What stands in front of a node: its anchor and its tag. -/
def nodeHead : Reader (Option (List Char) × Option String) := do
  let (anchor, written) ← properties
  let tag ← writtenTag written
  checkAnchor anchor
  return (anchor, tag)

/-- A scalar and its anchor. -/
def scalarNode (anchor : Option (List Char)) (tag : String) (text : List Char) : Reader Node := do
  name anchor (some (.scalar tag text))
  return .scalar tag text

/-- A collection, which its anchor names once it is read. -/
def collection (anchor : Option (List Char)) (read : Reader Node) : Reader Node := do
  name anchor none
  let n ← read
  name anchor (some n)
  return n

/-- Whether brackets end here. Between two items stands a comma, and one may stand behind the
last. -/
def flowEnds (close : Token) (first : Bool) : Reader Bool := do
  if ← accept close then return true
  if !first then
    unless ← accept .flowEntry do malformed
  accept close

/-- A part in brackets, unless one of some tokens comes up in its place. -/
def flowPart (ends : List Token) (read : Reader Node) : Reader Node := do
  if ends.contains (← peek) then return .nothing else read

/-- A member in brackets, its mark read. -/
def flowMember (close : Token) (read : Reader Node) : Reader (Node × Node) := do
  let k ← flowPart [.value, .flowEntry, close] read
  if ← accept .value then return (k, ← flowPart [.flowEntry, close] read)
  return (k, .nothing)

mutual

/-- A node. In a block it may be a block, and behind a key the entries of a sequence may stand
without a deeper column. -/
def node : Nat → Nat → Bool → Bool → Reader Node
  | 0, _, _, _ => malformed
  | fuel + 1, depth, inBlock, entriesMayFollow => do
    match ← peek with
    | .reference a =>
      skip
      match (← get).anchors.lookup a with
      | some (some n) => return n
      | _ => malformed
    | _ =>
      let (anchor, tag) ← nodeHead
      let list := collectionTag tag Tag.list
      let map := collectionTag tag Tag.map
      match depth with
      | 0 => throw .tooDeep
      | depth + 1 =>
        let token ← peek
        if entriesMayFollow && token == .blockEntry then
          collection anchor do return .sequence list (← looseEntries fuel depth [])
        else
          match token with
          | .scalar text plain =>
            skip
            scalarNode anchor (scalarTag tag text plain) text
          | .flowSequence =>
            skip
            collection anchor do return .sequence list (← flowItems fuel depth true [])
          | .flowMapping =>
            skip
            collection anchor do return .mapping map (← flowMembers fuel depth true [])
          | .blockSequence =>
            if inBlock then
              skip
              collection anchor do return .sequence list (← blockEntries fuel depth [])
            else malformed
          | .blockMapping =>
            if inBlock then
              skip
              collection anchor do return .mapping map (← blockMembers fuel depth [])
            else malformed
          | _ =>
            if anchor.isNone && tag.isNone then malformed
            else scalarNode anchor (scalarTag tag [] true) []

/-- The entries of a sequence up to the end of its block. -/
def blockEntries : Nat → Nat → List Node → Reader (List Node)
  | 0, _, _ => malformed
  | fuel + 1, depth, out => do
    if ← accept .blockEntry then
      match ← peek with
      | .blockEntry | .blockEnd => blockEntries fuel depth (.nothing :: out)
      | _ =>
        let n ← node fuel depth true false
        blockEntries fuel depth (n :: out)
    else if ← accept .blockEnd then return out.reverse
    else malformed

/-- The entries of a sequence without a block of its own. -/
def looseEntries : Nat → Nat → List Node → Reader (List Node)
  | 0, _, _ => malformed
  | fuel + 1, depth, out => do
    if ← accept .blockEntry then
      match ← peek with
      | .blockEntry | .key | .value | .blockEnd => looseEntries fuel depth (.nothing :: out)
      | _ =>
        let n ← node fuel depth true false
        looseEntries fuel depth (n :: out)
    else return out.reverse

/-- A key or a value in a block, where one is written. -/
def blockPart : Nat → Nat → Reader Node
  | 0, _ => malformed
  | fuel + 1, depth => do
    match ← peek with
    | .key | .value | .blockEnd => return .nothing
    | _ => node fuel depth true true

/-- The members of a mapping up to the end of its block. -/
def blockMembers : Nat → Nat → List (Node × Node) → Reader (List (Node × Node))
  | 0, _, _ => malformed
  | fuel + 1, depth, out => do
    if ← accept .key then
      let k ← blockPart fuel depth
      let v ← if ← accept .value then blockPart fuel depth else pure .nothing
      blockMembers fuel depth ((k, v) :: out)
    else if ← accept .blockEnd then return out.reverse
    else malformed

/-- The items of a sequence in brackets. -/
def flowItems : Nat → Nat → Bool → List Node → Reader (List Node)
  | 0, _, _, _ => malformed
  | fuel + 1, depth, first, out => do
    if ← flowEnds .flowSequenceEnd first then return out.reverse
    if ← accept .key then
      let m ← flowMember .flowSequenceEnd (node fuel (depth - 1) false false)
      flowItems fuel depth false (.mapping Tag.map [m] :: out)
    else
      let n ← node fuel depth false false
      flowItems fuel depth false (n :: out)

/-- The members of a mapping in brackets. -/
def flowMembers : Nat → Nat → Bool → List (Node × Node) → Reader (List (Node × Node))
  | 0, _, _, _ => malformed
  | fuel + 1, depth, first, out => do
    if ← flowEnds .flowMappingEnd first then return out.reverse
    if ← accept .key then
      let m ← flowMember .flowMappingEnd (node fuel depth false false)
      flowMembers fuel depth false (m :: out)
    else
      let k ← node fuel depth false false
      flowMembers fuel depth false ((k, .nothing) :: out)

end

/-! ## Documents -/

def standardHandles : List (List Char × List Char) :=
  [(['!'], ['!']), (['!', '!'], (Tag.ofName "").toList)]

/-- Reads the directives in front of a document. -/
def directives : Nat → Bool → List (List Char × List Char) → Reader Unit
  | 0, _, _ => malformed
  | fuel + 1, versioned, own => do
    match ← peek with
    | .version major =>
      skip
      if versioned || major != 1 then malformed
      directives fuel true own
    | .handle h start =>
      skip
      if (own.lookup h).isSome then malformed
      directives fuel versioned ((h, start) :: own)
    | .directive =>
      skip
      directives fuel versioned own
    | _ => modify fun r => { r with handles := own ++ standardHandles }

/-- Skips the marks behind a document. -/
def documentEnds : Nat → Reader Unit
  | 0 => return
  | fuel + 1 => do
    if ← accept .documentEnd then documentEnds fuel

/-- The root of a document behind which the text ends. -/
def lastRoot (fuel : Nat) (read : Reader Node) : Reader (Option Node) := do
  let n ← read
  documentEnds fuel
  if ← accept .streamEnd then return some n else malformed

/-- The root of a document, if it has one. Nodes may be nested as deep as is given. -/
def markedRoot (fuel depth : Nat) : Reader Node := do
  match ← peek with
  | .version _ | .handle _ _ | .directive | .documentStart | .documentEnd | .streamEnd =>
    return .nothing
  | _ => node fuel depth true false

/-- The only document of a text, if there is one. -/
def document (fuel depth : Nat) : Reader (Option Node) := do
  match ← peek with
  | .streamEnd => return none
  | .version _ | .handle _ _ | .directive | .documentStart =>
    directives fuel false []
    if ← accept .documentStart then lastRoot fuel (markedRoot fuel depth) else malformed
  | _ => lastRoot fuel (node fuel depth true false)

end Reader

/-- The node of a text, if it holds one. -/
def nodeOf? (depth : Nat) (cs : List Char) : Except YamlError (Option Node) :=
  let tokens := tokensOf cs
  (Reader.document (4 * tokens.length + 8) depth).run' ⟨tokens, [], Reader.standardHandles⟩

end SourceAtlas.Yaml
