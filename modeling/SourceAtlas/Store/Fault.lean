import SourceAtlas.Files.Tree
import SourceAtlas.Settings.Cast
import SourceAtlas.Store.Basic
import SourceAtlas.Vector.Basic

/-!
# Faults of a store

Why a store cannot be opened, read or written, and the texts that tell it.

Models `StoreUnavailable`, `StoreTransactionFailure` and `DimensionMismatch` with the texts that
`ContextStore` gives them.
-/

namespace SourceAtlas

open Text

/-! ## Vectors -/

/-- Why numbers are no vector that a store keeps. -/
inductive VectorFault where
  | noList (what : String)
  | array (e : ArrayError)
  | shape
  | notFinite
  deriving BEq, DecidableEq, Repr

namespace VectorFault

def reason : VectorFault → String
  | noList what => "'" ++ what ++ "' object is not iterable"
  | array e => e.message
  | shape => "embedding must be a non-empty one-dimensional vector"
  | notFinite => "embedding contains non-finite values"

end VectorFault

/-! ## Lines -/

/-- Why a value is no line number. -/
inductive LineFault where
  | notANumber
  | infinite
  | numeral (s : String)
  | tooManyDigits (digits : Nat)
  | wrongType (what : String)
  deriving BEq, DecidableEq, Repr

namespace LineFault

def reason : LineFault → String
  | notANumber => "cannot convert float NaN to integer"
  | infinite => "cannot convert float infinity to integer"
  | numeral s =>
    "invalid literal for int() with base 10: " ++ String.ofList ((quoted s).toList.take 200)
  | tooManyDigits n =>
    s!"Exceeds the limit ({Number.maxDigits} digits) for integer string conversion: " ++
      s!"value has {n} digits; use sys.set_int_max_str_digits() to increase the limit"
  | wrongType what => "int() argument must be a string, a bytes-like object or a real number, " ++
      "not '" ++ what ++ "'"

end LineFault

/-! ## Writes -/

/-- The columns that hold something in every row, under the names they have in their tables. -/
inductive Column where
  | path
  | content
  | hash
  | language
  | name
  deriving BEq, DecidableEq, Repr

namespace Column

def fullName : Column → String
  | path => "documents.path"
  | content => "documents.content"
  | hash => "documents.content_hash"
  | language => "documents.language"
  | name => "variable_refs.variable_name"

end Column

/-- Why a write is rolled back. -/
inductive WriteFault where
  | vector (f : VectorFault)
  | cannotBegin
  | dimensions (expected actual : Nat)
  | missingTable
  | missing (c : Column)
  | line (f : LineFault)
  | unknownKind (shown : String)
  | wideKind
  | unbindable (f : BindFault)
  deriving BEq, DecidableEq, Repr

def missingTableText : String := "no such table: variable_refs"

/-- What is said of a value with an integer that is too wide to be written. -/
def wideText : String :=
  s!"Exceeds the limit ({Number.maxDigits} digits) for integer string conversion; " ++
    "use sys.set_int_max_str_digits() to increase the limit"

namespace WriteFault

def reason : WriteFault → String
  | vector f => f.reason
  | cannotBegin => "cannot begin: cannot start a transaction within a transaction"
  | dimensions expected actual =>
    s!"embedding has {actual} dimensions, store expects {expected}"
  | missingTable => missingTableText
  | missing c => "NOT NULL constraint failed: " ++ c.fullName
  | line f => f.reason
  | unknownKind shown => shown ++ " is not a valid RefType"
  | wideKind => wideText
  | unbindable f => f.reason

end WriteFault

/-! ## Stores -/

/-- Why a store cannot be opened. -/
inductive OpenFault where
  | files (e : FileError)
  | cannotOpen
  | notAStore
  deriving BEq, DecidableEq, Repr

namespace OpenFault

def reason : OpenFault → String
  | files e => e.message
  | cannotOpen => "unable to open database file"
  | notAStore => "file is not a database"

end OpenFault

/-- Why an operation of a store fails. A vector with an integer beyond every double is refused
before the store is asked. -/
inductive StoreError where
  | cannotOpen (location : String) (f : OpenFault)
  | closed (location : String)
  | missingTable
  | rolledBack (path : Option String) (f : WriteFault)
  | vectorTooLarge
  deriving BEq, DecidableEq, Repr

namespace StoreError

def message : StoreError → String
  | cannotOpen location f => s!"Cannot open store at {location}: {f.reason}"
  | closed location => s!"Store {location} is closed"
  | missingTable => "Store read failed: " ++ missingTableText
  | rolledBack path f => "Transaction for " ++ path.getD "None" ++ " rolled back: " ++ f.reason
  | vectorTooLarge => ArrayError.tooLarge.message

def family : StoreError → FaultFamily
  | cannotOpen _ (.files e) => if e.family == .io then .unavailable else .other
  | cannotOpen _ _ | closed _ | missingTable => .unavailable
  | rolledBack _ _ => .store
  | vectorTooLarge => .other

end StoreError

end SourceAtlas
