import SourceAtlas.Json.Read
import SourceAtlas.Json.Write
import SourceAtlas.Store.Basic
import SourceAtlas.Text.Utf8

/-!
# Store files

The bytes of a file that holds a store: a mark, and the tables as a JSON text.

Stands for the database file of a store. The format is one of its own: nothing but `ContextStore`
looks into the file.
-/

namespace SourceAtlas

/-! ## Values of rows -/

namespace Value

def asInt? : Value → Option Int
  | int n => some n
  | _ => none

def asNat? : Value → Option Nat
  | int (.ofNat n) => some n
  | _ => none

/-- The bytes that a list of integers is. -/
def asBytes? : Value → Option (List UInt8)
  | list vs => vs.mapM fun b => b.asNat?.map UInt8.ofNat
  | _ => none

def ofBytes (bs : List UInt8) : Value := list (bs.map fun b => .int b.toNat)

end Value

namespace Cell

def toValue : Cell → Value
  | text s => .text s
  | blob bs => .ofBytes bs

def ofValue? : Value → Option Cell
  | .text s => some (.text s)
  | v => v.asBytes?.map blob

/-- A cell or null. -/
def ofOption? : Value → Option (Option Cell)
  | .null => some none
  | v => (ofValue? v).map some

end Cell

namespace DocumentRow

def toValue (r : DocumentRow) : Value :=
  .list [.text r.path, .text r.content, .ofBytes r.vector, .int r.dimensions, .text r.hash,
    .text r.language]

def ofValue? : Value → Option DocumentRow
  | .list [path, content, vector, dimensions, hash, language] => do
    return ⟨← path.asText?, ← content.asText?, ← vector.asBytes?, ← dimensions.asNat?,
      ← hash.asText?, ← language.asText?⟩
  | _ => none

end DocumentRow

namespace ReferenceRow

def toValue (r : ReferenceRow) : Value :=
  .list [.int r.id, .text r.path, r.name.toValue, .text r.kind.toString, .int r.line,
    (r.source.map Cell.toValue).getD .null]

def ofValue? : Value → Option ReferenceRow
  | .list [id, path, name, kind, line, source] => do
    return ⟨← id.asNat?, ← path.asText?, ← Cell.ofValue? name,
      ← kind.asText?.bind RefKind.ofString?, ← line.asInt?, ← Cell.ofOption? source⟩
  | _ => none

end ReferenceRow

/-! ## Tables -/

namespace Tables

/-- Tables as a value. A table that is gone is written as null. -/
def toValue (t : Tables) : Value :=
  .list [.list (t.documents.map DocumentRow.toValue),
    (t.references.map fun rows => Value.list (rows.map ReferenceRow.toValue)).getD .null,
    .int t.nextId]

def ofValue? : Value → Option Tables
  | .list [.list documents, references, nextId] => do
    let rows ← match references with
      | .null => some none
      | .list rows => (rows.mapM ReferenceRow.ofValue?).map some
      | _ => none
    return ⟨← documents.mapM DocumentRow.ofValue?, rows, ← nextId.asNat?⟩
  | _ => none

/-- How every store file begins. -/
def fileMark : List UInt8 := Text.Utf8.encode "source atlas store 1\n".toList

def toFile (t : Tables) : List UInt8 := fileMark ++ Text.Utf8.encode (Json.write t.toValue).toList

/-- The tables of a file. An empty file holds empty tables. -/
def ofFile? (bytes : List UInt8) : Option Tables :=
  if bytes.isEmpty then some .empty
  else if fileMark.isPrefixOf bytes then
    let text := String.ofList (Text.Utf8.decode (bytes.drop fileMark.length))
    (Json.read text).toOption.bind ofValue?
  else none

end Tables

end SourceAtlas
