import SourceAtlas.Number.Shortest
import SourceAtlas.Value.Text

/-!
# Cells

What the columns `variable_name` and `source_path` of the store hold, and which values can be bound
to them. A column of texts keeps a text as it is, writes a number out, and keeps bytes as bytes; a
list is bound to no column at all.

The binding is that of the standard library: whoever registers adapters of their own binds more.
-/

namespace SourceAtlas

open Number

/-! ## What columns hold -/

/-- What a column of texts holds where it holds something. -/
inductive Cell where
  | text (s : String)
  | blob (bs : List UInt8)
  deriving DecidableEq, Repr, Inhabited

namespace Cell

/-- Neither characters nor bytes. -/
def isEmpty : Cell → Bool
  | text s => s == ""
  | blob bs => bs.isEmpty

/-- How a cell reads inside a text. Bytes read as they are quoted. -/
def toText : Cell → String
  | text s => s
  | blob bs => Value.quotedBytes bs

end Cell

/-! ## Integers of 64 bits -/

/-- The first integer that is too large for a column of 64 bits. -/
def columnEnd : Int := 0x8000000000000000

/-- Whether an integer fits a column. -/
def fitsColumn (n : Int) : Bool := -columnEnd ≤ n && n < columnEnd

/-! ## Binding -/

/-- Why a value cannot be bound to a column. -/
inductive BindFault where
  | tooLarge
  | unsupported (place : Nat) (what : String)
  deriving BEq, DecidableEq, Repr

namespace BindFault

def reason : BindFault → String
  | tooLarge => "Python int too large to convert to SQLite INTEGER"
  | unsupported place what => s!"Error binding parameter {place}: type '" ++ what ++
      "' is not supported"

end BindFault

/-- What the type of a value is called. -/
def Value.typeName : Value → String
  | .null => "NoneType"
  | .bool _ => "bool"
  | .int _ => "int"
  | .float _ => "float"
  | .text _ => "str"
  | .bytes _ => "bytes"
  | .date _ => "datetime.date"
  | .moment _ => "datetime.datetime"
  | .list _ => "list"
  | .pair _ _ => "tuple"
  | .map _ => "dict"
  | .set _ => "set"

/-- How many digits of a number a column of texts keeps. -/
def keptDigits : Nat := 15

/-- The text that a column keeps of a number. A NaN counts as nothing. -/
def numberCell (x : Float) : Option Cell :=
  if x.isNaN then none
  else if x.isInf then some (.text (if isNegative x then "-Inf" else "Inf"))
  else some (.text (digitsText keptDigits x))

/-- The integer that a column keeps. -/
def boundInt (n : Int) : Except BindFault Int := if fitsColumn n then .ok n else .error .tooLarge

/-- What a column of texts keeps of a value that is bound at a place. -/
def Value.bound (place : Nat) : Value → Except BindFault (Option Cell)
  | .null => .ok none
  | .bool b => .ok (some (.text (if b then "1" else "0")))
  | .int n => (boundInt n).map fun n => some (.text (toString n))
  | .float x => .ok (numberCell x)
  | .text s => .ok (some (.text s))
  | .bytes bs => .ok (some (.blob bs))
  | .date d => .ok (some (.text d.text))
  | .moment m => .ok (some (.text m.text))
  | v => .error (.unsupported place v.typeName)

/-- What a column of texts keeps of what is given for it. To give nothing is to give a null. -/
def bound (place : Nat) (v : Option Value) : Except BindFault (Option Cell) :=
  (v.getD .null).bound place

/-! ## Texts as values and as cells -/

instance : Coe (Option String) (Option Value) := ⟨Option.map .text⟩

instance : Coe (Option String) (Option Cell) := ⟨Option.map .text⟩

end SourceAtlas
