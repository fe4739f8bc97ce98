import SourceAtlas.Number.Numeral
import SourceAtlas.Reference.Basic

/-!
# Arguments

What the arguments of the command line say. Options may be shortened to any beginning that only one
of them has, and two dashes end the options.

Models the parser that `_build_parser` makes, and the rules by which it reads arguments.
-/

namespace SourceAtlas.Command

/-! ## Forms -/

/-- How many arguments a place takes: one, one or none, or one and all that follow it. -/
inductive Arity where
  | one
  | atMostOne
  | rest
  deriving BEq, DecidableEq, Repr

/-- An option with its names, and the values that it takes if it takes one. -/
structure OptionForm where
  key : String
  names : List String
  value : Option (String → Bool)

/-- The options and the place that a list of arguments has. -/
structure Form where
  options : List OptionForm
  place : Option Arity

/-- Why arguments are not carried out: help was asked for, or they are wrong. -/
inductive Stop where
  | help
  | usage
  deriving BEq, DecidableEq, Repr

namespace Form

def helpOption : OptionForm := ⟨"help", ["-h", "--help"], none⟩

/-- All names of options with their options. -/
def named (f : Form) : List (String × OptionForm) :=
  (helpOption :: f.options).flatMap fun o => o.names.map fun n => (n, o)

end Form

/-! ## Marks -/

/-- An option that an argument names, with the part of the argument that is its value. `split` tells
that an equal sign stands between them. -/
structure Named where
  name : String
  option : OptionForm
  split : Bool
  value : Option String

/-- What an argument is: an option that is known or not, the end of options, or something else. -/
inductive Mark where
  | option (o : Named)
  | unknown
  | dashes
  | plain

def Mark.isOption : Mark → Bool
  | option _ | unknown => true
  | _ => false

/-- A text cut at its first equal sign. -/
def cutAtEqual (s : String) : String × Option String :=
  let cs := s.toList
  let name := String.ofList (cs.takeWhile (· != '='))
  match cs.dropWhile (· != '=') with
  | [] => (name, none)
  | _ :: value => (name, some (String.ofList value))

/-- Whether a text writes a negative number. -/
def isNegativeNumber (s : String) : Bool :=
  let isDigit (c : Char) : Bool := (Text.digit? c).isSome
  match s.toList with
  | '-' :: cs =>
    let tail := cs.dropWhile isDigit
    (!cs.isEmpty && tail.isEmpty) ||
      (match tail with
       | '.' :: ds => !ds.isEmpty && ds.all isDigit
       | _ => false)
  | _ => false

/-- The options that an argument may be short for. -/
def shortened (f : Form) (arg : String) : List Named :=
  match arg.toList with
  | '-' :: '-' :: _ =>
    let (name, value) := cutAtEqual arg
    (f.named.filter fun e => e.1.startsWith name).map fun e => ⟨e.1, e.2, value.isSome, value⟩
  | '-' :: c :: rest =>
    f.named.filterMap fun e =>
      if e.1 == String.ofList ['-', c] then some ⟨e.1, e.2, false, some (String.ofList rest)⟩
      else if e.1.startsWith arg then some ⟨e.1, e.2, false, none⟩
      else none
  | _ => []

/-- What an argument before the end of options is. -/
def mark (f : Form) (arg : String) : Except Stop Mark :=
  if arg == "--" then .ok .dashes
  else if !arg.startsWith "-" then .ok .plain
  else
    match f.named.lookup arg with
    | some o => .ok (.option ⟨arg, o, false, none⟩)
    | none =>
      if arg == "-" then .ok .plain
      else
        let (name, value) := cutAtEqual arg
        match value, f.named.lookup name with
        | some v, some o => .ok (.option ⟨name, o, true, some v⟩)
        | _, _ =>
          match shortened f arg with
          | [o] => .ok (.option o)
          | _ :: _ :: _ => .error .usage
          | [] => .ok (if isNegativeNumber arg || arg.toList.contains ' ' then .plain else .unknown)

/-- Arguments with their marks. -/
def markAll (f : Form) : List String → Except Stop (List (String × Mark))
  | [] => .ok []
  | arg :: args => do
    match ← mark f arg with
    | .dashes => return (arg, .dashes) :: args.map fun a => (a, .plain)
    | m => return (arg, m) :: (← markAll f args)

/-! ## Reading -/

/-- What arguments say: the options in their order, what stands in the place, and what is left. -/
structure Parsed where
  options : List (String × String)
  place : Option (List String)
  extras : List String
  deriving Inhabited

namespace Parsed

def has (p : Parsed) (key : String) : Bool := p.options.any fun e => e.1 == key

/-- The last value of an option. -/
def value? (p : Parsed) (key : String) : Option String := p.options.reverse.lookup key

end Parsed

/-- Carries out an option. -/
def take (o : OptionForm) (value : Option String) (p : Parsed) : Except Stop Parsed :=
  if o.key == Form.helpOption.key then .error .help
  else
    match o.value, value with
    | some accepts, some v =>
      if accepts v then .ok { p with options := p.options ++ [(o.key, v)] } else .error .usage
    | _, _ => .ok { p with options := p.options ++ [(o.key, "")] }

/-- Options without values that share a dash. `pending` are those that are to be carried out, and
the letters that follow are options too. Answers how many further arguments are used up. -/
def takeShared (f : Form) (next : Option String) :
    Nat → Named → List OptionForm → Parsed → Except Stop (Parsed × Nat)
  | 0, _, _, _ => .error .usage
  | fuel + 1, o, pending, p =>
    let carryOut (last : Option (OptionForm × Option String)) (p : Parsed) (n : Nat) :
        Except Stop (Parsed × Nat) := do
      let p ← pending.reverse.foldlM (fun p o => take o none p) p
      match last with
      | some (o, v) => return (← take o v p, n)
      | none => return (p, n)
    match o.option.value, o.value with
    | some _, some v => carryOut (some (o.option, some v)) p 0
    | some _, none =>
      match next with
      | some v => carryOut (some (o.option, some v)) p 1
      | none => .error .usage
    | none, none => carryOut (some (o.option, none)) p 0
    | none, some v =>
      if o.name.startsWith "--" then .error .usage
      else
        match v.toList with
        | [] => .error .usage
        | c :: rest =>
          if o.split || c == '-' then .error .usage
          else
            let name := String.ofList ['-', c]
            match f.named.lookup name with
            | none =>
              let p := { p with extras := p.extras ++ ["-" ++ v] }
              (pending.reverse ++ [o.option]).foldlM (fun p o => take o none p) p
                |>.map fun p => (p, 0)
            | some shared =>
              let (split, value) := match rest with
                | [] => (false, none)
                | '=' :: v => (true, some (String.ofList v))
                | v => (false, some (String.ofList v))
              takeShared f next fuel ⟨name, shared, split, value⟩ (o.option :: pending) p

def countDashes (args : List (String × Mark)) : Nat :=
  (args.takeWhile fun e => match e.2 with
    | .dashes => true
    | _ => false).length

/-- How many arguments a place takes from the start of a list, if it can take them. -/
def placeCount? (arity : Arity) (args : List (String × Mark)) : Option Nat :=
  let before := countDashes args
  let rest := args.drop before
  let isPlain := match rest with
    | (_, .plain) :: _ => true
    | _ => false
  match arity with
  | .rest => if isPlain then some args.length else none
  | .one => if isPlain then some (before + 1 + countDashes (rest.drop 1)) else none
  | .atMostOne =>
    if isPlain then some (before + 1 + countDashes (rest.drop 1)) else some before

/-- Fills the place from the start of a list. The first two dashes do not count, unless all that
follows belongs to the place. Answers how many arguments it takes. -/
def fillPlace (f : Form) (args : List (String × Mark)) (p : Parsed) : Parsed × Nat :=
  match f.place, p.place with
  | some arity, none =>
    match placeCount? arity args with
    | none => (p, 0)
    | some n =>
      let texts := (args.take n).map (·.1)
      ({ p with place := some (if arity == .rest then texts else texts.erase "--") }, n)
  | _, _ => (p, 0)

/-- Reads marked arguments: options wherever they stand, and the place where it comes up. -/
def readMarked (f : Form) : Nat → List (String × Mark) → Parsed → Except Stop Parsed
  | 0, _, p => .ok p
  | fuel + 1, args, p =>
    if !args.any fun e => e.2.isOption then
      let (p, n) := fillPlace f args p
      .ok { p with extras := p.extras ++ (args.drop n).map (·.1) }
    else
      match args with
      | [] => .ok p
      | (arg, .unknown) :: rest => readMarked f fuel rest { p with extras := p.extras ++ [arg] }
      | (_, .option o) :: rest =>
        let next := match rest with
          | (v, .plain) :: _ => some v
          | _ => none
        match takeShared f next (2 + ((o.value.map String.length).getD 0)) o [] p with
        | .error stop => .error stop
        | .ok (p, n) => readMarked f fuel (rest.drop n) p
      | (arg, _) :: rest =>
        match fillPlace f args p with
        | (p, 0) => readMarked f fuel rest { p with extras := p.extras ++ [arg] }
        | (p, n + 1) => readMarked f fuel (rest.drop n) p

/-- Reads arguments. A place that must be filled is, unless the arguments are wrong. -/
def Form.read (f : Form) (args : List String) : Except Stop Parsed := do
  let marked ← markAll f args
  let p ← readMarked f (marked.length + 1) marked ⟨[], none, []⟩
  match f.place, p.place with
  | some .one, none | some .rest, none => throw .usage
  | _, _ => return p

/-! ## Commands -/

/-- What can be asked for. -/
inductive Task where
  | index (root : String) (force json quiet : Bool)
  | search (query : String) (k : Option Int) (json : Bool)
  | context (query : String) (k : Option Int)
  | references (name : String) (kind : Option RefKind)
  | remove (path : String)
  | status
  deriving BEq, DecidableEq, Repr

/-- A task, and where its store and its settings are. -/
structure Request where
  store : Option String
  settings : Option String
  verbose : Bool
  logFile : Bool
  task : Task
  deriving BEq, DecidableEq, Repr

def flag (key : String) (names : List String) : OptionForm := ⟨key, names, none⟩

def valued (key : String) (names : List String) (accepts : String → Bool) : OptionForm :=
  ⟨key, names, some accepts⟩

def countOption : OptionForm :=
  valued "top-k" ["--top-k"] fun s => (Number.int? s).isSome

/-- The arguments in front of a task, and the task with its own. -/
def requestForm : Form :=
  ⟨[valued "db" ["--db"] fun _ => true, valued "config" ["--config"] fun _ => true,
    flag "verbose" ["-v", "--verbose"], flag "log-file" ["--log-file"]], some .rest⟩

/-- The arguments of each task. -/
def taskForms : List (String × Form) :=
  [("index", ⟨[flag "force" ["--force"], flag "json" ["--json"], flag "quiet" ["-q", "--quiet"]],
      some .atMostOne⟩),
   ("search", ⟨[countOption, flag "json" ["--json"]], some .one⟩),
   ("context", ⟨[countOption], some .one⟩),
   ("refs", ⟨[valued "type" ["--type"] fun s => (RefKind.ofString? s).isSome], some .one⟩),
   ("remove", ⟨[], some .one⟩),
   ("status", ⟨[], none⟩)]

/-- The task with a name, from its arguments. -/
def taskOf (name : String) (p : Parsed) : Task :=
  let place (default : String) : String := ((p.place.bind List.head?).getD default)
  let k := (p.value? "top-k").bind Number.int?
  match name with
  | "index" => .index (place ".") (p.has "force") (p.has "json") (p.has "quiet")
  | "search" => .search (place "") k (p.has "json")
  | "context" => .context (place "") k
  | "refs" => .references (place "") ((p.value? "type").bind RefKind.ofString?)
  | "remove" => .remove (place "")
  | _ => .status

/-- The request that arguments make. -/
def Request.ofArguments (args : List String) : Except Stop Request := do
  let p ← requestForm.read args
  match p.place with
  | some (name :: args) =>
    match taskForms.lookup name with
    | none => throw .usage
    | some form =>
      let q ← form.read args
      if !(p.extras.isEmpty && q.extras.isEmpty) then throw .usage
      return {
        store := p.value? "db"
        settings := p.value? "config"
        verbose := p.has "verbose"
        logFile := p.has "log-file"
        task := taskOf name q }
  | _ => throw .usage

end SourceAtlas.Command
