/-!
# Values of data files

The values that data files hold. Files in JSON hold only some of them; keys of a map are there
always text.
-/

namespace SourceAtlas

/-- A day of the calendar. -/
structure Date where
  year : Nat
  month : Nat
  day : Nat
  deriving BEq, DecidableEq, Repr

/-- A moment: a day, a time of that day in microseconds, and the offset from universal time in
minutes where it is given. -/
structure Moment where
  date : Date
  micros : Nat
  offset : Option Int
  deriving BEq, DecidableEq, Repr

/-- A value of a data file. -/
inductive Value where
  | null
  | bool (b : Bool)
  | int (n : Int)
  | float (x : Float)
  | text (s : String)
  | bytes (bs : List UInt8)
  | date (d : Date)
  | moment (m : Moment)
  | list (vs : List Value)
  | pair (a b : Value)
  | map (entries : List (Value × Value))
  | set (vs : List Value)
  deriving Inhabited

namespace Value

/-- The last entry of a map under a text. -/
def get? (key : String) : Value → Option Value
  | map entries =>
    entries.foldl
      (fun found e =>
        match e.1 with
        | text k => if k == key then some e.2 else found
        | _ => found)
      none
  | _ => none

def asText? : Value → Option String
  | text s => some s
  | _ => none

def asList? : Value → Option (List Value)
  | list vs => some vs
  | _ => none

end Value

end SourceAtlas
