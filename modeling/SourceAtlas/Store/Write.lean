import SourceAtlas.Store.Fault

/-!
# Writing to a store

Every write replaces or removes one document with all its references in a transaction: the
statements run one after another, and when one fails the tables are put back as they were when the
transaction began.

Models `ContextStore.upsert`, `ContextStore.delete` and `_transaction`, with `_vec_to_bytes` before
them and `_stored_dimensions` inside. The path and the texts of a document are texts or nothing,
as their types say; only references bring any values. The time of the write and log records are left
out.
-/

namespace SourceAtlas

open Number

/-! ## What is handed in -/

/-- A reference as it is handed in: any values, of which nothing has been checked. The file that it
says it is of is never looked at, and is no part of it: it is stored for the document it is handed
in with. -/
structure DraftReference where
  name : Option Value
  kind : Value
  line : Value
  source : Option Value
  deriving Inhabited

/-- A document as it is handed in. Nothing about it has been checked. -/
structure Draft where
  path : Option String
  content : Option String
  vector : Option Nested
  references : List DraftReference
  hash : Option String
  language : Option String
  deriving Inhabited

/-! ## Vectors -/

/-- The singles of a vector: a list of numbers, not empty, and all finite as singles. -/
def storedVector (v : Option Nested) (limit : Nat := maxDimensions) :
    Except VectorFault (List Single) :=
  match v with
  | none => .error (.noList "NoneType")
  | some (.one (.float _)) => .error (.noList "float")
  | some (.one (.int _)) => .error (.noList "int")
  | some (.many ns) =>
    match (Nested.many ns).toDoubles limit with
    | .error e => .error (.array e)
    | .ok a =>
      let singles := a.elements.map Single.ofFloat
      if a.dims.length != 1 || singles.isEmpty then .error .shape
      else if singles.all Single.isFinite then .ok singles
      else .error .notFinite

/-! ## References -/

/-- The digits that a text without blanks, sign and underscores consists of, if it has more of them
than a numeral may have. -/
def excessDigits? (s : String) : Option Nat := do
  let (_, ds) := splitSign (← numeral? s)
  guard (maxDigits < ds.length && ds.all Char.isDigit)
  return ds.length

/-- The line number that a value is: a number loses its fraction and a text is read. -/
def lineOf (v : Value) : Except LineFault Int :=
  match v.castInt with
  | .ok n => .ok n
  | .error .tooLarge => .error .infinite
  | .error .invalid =>
    match v with
    | .text s =>
      match excessDigits? s with
      | some n => .error (.tooManyDigits n)
      | none => .error (.numeral s)
    | _ => .error .notANumber
  | .error .wrongType => .error (.wrongType v.typeName)

/-- The kind of a reference that a value names. -/
def kindOf (v : Value) : Except WriteFault RefKind :=
  match v.asText?.bind RefKind.ofString? with
  | some k => .ok k
  | none => .error (if v.holdsWide then .wideKind else .unknownKind v.shown)

/-- What a column holds that must hold something. -/
def present (c : Column) (cell : Option Cell) : Except WriteFault Cell :=
  cell.elim (.error (.missing c)) .ok

/-- The row of a reference, with its number. Its line and its kind are converted first; then all
values are bound in the order of the columns, and only then is a missing name found out. -/
def rowOf (path : String) (id : Nat) (r : DraftReference) : Except WriteFault ReferenceRow := do
  let line ← (lineOf r.line).mapError .line
  let kind ← kindOf r.kind
  let name ← (bound 1 r.name).mapError .unbindable
  let line ← (boundInt line).mapError .unbindable
  let source ← (bound 5 r.source).mapError .unbindable
  let name ← present .name name
  return ⟨id, path, name, kind, line, source⟩

/-! ## Statements -/

/-- A part of a transaction. It leaves tables behind whether it succeeds or fails. -/
abbrev Statement := ExceptT WriteFault (StateM Tables)

namespace Statement

/-- What a statement comes to on tables, and the tables that it leaves. -/
def on {α : Type} (work : Statement α) (t : Tables) : Except WriteFault α × Tables :=
  (work.run.run t).run

/-- Removes the references that a path owns. -/
def dropReferences (path : Option String) : Statement Unit := do
  let t ← get
  match t.references with
  | none => throw .missingTable
  | some rows =>
    set { t with references := some (rows.filter fun r => some r.path != path) }

/-- Removes the document under a path, and tells whether there was one. -/
def dropDocument (path : Option String) : Statement Bool := do
  let t ← get
  set { t with documents := t.documents.filter fun r => some r.path != path }
  return t.documents.any fun r => some r.path == path

/-- The number of elements that the vectors of all documents but one have. -/
def checkDimensions (path : Option String) (actual : Nat) : Statement Unit := do
  match (← get).documents.find? fun r => some r.path != path with
  | some row => if row.dimensions != actual then throw (.dimensions row.dimensions actual)
  | none => return

/-- A column that must hold something. -/
def required (c : Column) : Option String → Statement String
  | some s => return s
  | none => throw (.missing c)

/-- Adds a document, and answers its path. -/
def addDocument (d : Draft) (vector : List Single) : Statement String := do
  let path ← required .path d.path
  let content ← required .content d.content
  let hash ← required .hash d.hash
  let language ← required .language d.language
  let row : DocumentRow := ⟨path, content, encodeVector vector, vector.length, hash, language⟩
  modify fun t => { t with documents := t.documents ++ [row] }
  return path

/-- Adds a reference of the document under a path. -/
def addReference (path : String) (r : DraftReference) : Statement Unit := do
  let t ← get
  match t.references with
  | none => throw .missingTable
  | some rows =>
    match rowOf path t.nextId r with
    | .error f => throw f
    | .ok row => set { t with references := some (rows ++ [row]), nextId := t.nextId + 1 }

/-- Adds references one after another. -/
def addReferences (path : String) : List DraftReference → Statement Unit
  | [] => return
  | r :: rs => do
    addReference path r
    addReferences path rs

/-- Puts a document with its references in place of the one under its path. -/
def replace (d : Draft) (vector : List Single) : Statement Unit := do
  checkDimensions d.path vector.length
  dropReferences d.path
  let _ ← dropDocument d.path
  let path ← addDocument d vector
  addReferences path d.references

/-- Removes the document under a path with its references. -/
def remove (path : Option String) : Statement Bool := do
  dropReferences path
  dropDocument path

end Statement

/-! ## Transactions -/

namespace Store

/-- Begins a transaction: notes the tables as they are. None begins within another. -/
def begin? (s : Store) : Option Store :=
  if s.saved.isSome then none else some { s with saved := s.tables }

/-- Runs statements on the tables. -/
def execute {α : Type} (s : Store) (work : Statement α) : Except WriteFault α × Store :=
  let (result, tables) := work.on s.tables
  (result, { s with tables })

/-- Ends a transaction and keeps what it did. -/
def commit (s : Store) : Store := { s with saved := none }

/-- Ends a transaction and puts the tables back as they were when it began. -/
def rollback (s : Store) : Store := { s with tables := s.saved.getD s.tables, saved := none }

/-- Runs statements as a transaction about a path. -/
def transaction {α : Type} (s : Store) (path : Option String) (work : Statement α) :
    Except StoreError α × Store :=
  if !s.isOpen then (.error (.closed s.location), s)
  else
    match s.begin? with
    | none => (.error (.rolledBack path .cannotBegin), s)
    | some s =>
      match s.execute work with
      | (.ok a, s) => (.ok a, s.commit)
      | (.error f, s) => (.error (.rolledBack path f), s.rollback)

/-- Writes a document with its references, in place of what is stored under its path. -/
def upsert (s : Store) (d : Draft) (limit : Nat := maxDimensions) :
    Except StoreError Unit × Store :=
  match storedVector d.vector limit with
  | .error (.array .tooLarge) => (.error .vectorTooLarge, s)
  | .error f => (.error (.rolledBack d.path (.vector f)), s)
  | .ok vector => s.transaction d.path (Statement.replace d vector)

/-- Removes the document under a path with its references, and tells whether there was one. -/
def delete (s : Store) (path : Option String) : Except StoreError Bool × Store :=
  s.transaction path (Statement.remove path)

end Store

end SourceAtlas
