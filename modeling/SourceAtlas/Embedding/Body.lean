import SourceAtlas.Text.Lower
import SourceAtlas.Text.Utf8

/-!
# The texts of replies

The text that a reply is taken for. The head of a reply may name the encoding of its body. Where it
names none, the encoding is told by a mark at the start of the body or by the zeros among its first
four bytes; what does not decode is read as UTF-8 with replacements.

This is what the HTTP library does for the client. Of the encodings that a head may name only UTF-8
and Latin-1 are known here; a body in any other is read as UTF-8.
-/

namespace SourceAtlas

open Text

/-- The order of the bytes of a unit. -/
inductive ByteOrder where
  | little
  | big
  deriving BEq, DecidableEq, Repr

/-- The encoding of a text, and how many bytes mark it. -/
inductive Charset where
  | utf8 (mark : Nat)
  | utf16 (order : ByteOrder) (mark : Nat)
  | utf32 (order : ByteOrder) (mark : Nat)
  deriving BEq, DecidableEq, Repr

namespace Charset

/-- The encoding that a body shows by its start. -/
def guess? (body : List UInt8) : Option Charset :=
  match body.take 4 with
  | [0xFF, 0xFE, 0, 0] => some (utf32 .little 4)
  | [0, 0, 0xFE, 0xFF] => some (utf32 .big 4)
  | 0xEF :: 0xBB :: 0xBF :: _ => some (utf8 3)
  | 0xFF :: 0xFE :: _ => some (utf16 .little 2)
  | 0xFE :: 0xFF :: _ => some (utf16 .big 2)
  | start =>
    match start.map (· == 0) with
    | [true, false, true, false] => some (utf16 .big 0)
    | [false, true, false, true] => some (utf16 .little 0)
    | [true, true, true, false] => some (utf32 .big 0)
    | [false, true, true, true] => some (utf32 .little 0)
    | zeros => if zeros.any id then none else some (utf8 0)

/-- Bytes in pairs as units, if none is left over. -/
def units16 (order : ByteOrder) : List UInt8 → Option (List Nat)
  | [] => some []
  | [_] => none
  | a :: b :: rest =>
    let unit := if order == .little then a.toNat + 256 * b.toNat else 256 * a.toNat + b.toNat
    (units16 order rest).map (unit :: ·)

/-- Bytes in fours as units, if none is left over. -/
def units32 (order : ByteOrder) : List UInt8 → Option (List Nat)
  | [] => some []
  | a :: b :: c :: d :: rest =>
    let (low, high) := if order == .little then ((a, b), (c, d)) else ((d, c), (b, a))
    let unit := low.1.toNat + 0x100 * low.2.toNat + 0x10000 * high.1.toNat +
      0x1000000 * high.2.toNat
    (units32 order rest).map (unit :: ·)
  | _ => none

/-- The characters of units of sixteen bits: two halves make one, and no half stands alone. -/
def pairUnits : List Nat → Option (List Char)
  | [] => some []
  | u :: rest =>
    if u < 0xD800 || 0xE000 ≤ u then (pairUnits rest).map (Char.ofNat u :: ·)
    else
      match rest with
      | v :: rest =>
        if u < 0xDC00 && 0xDC00 ≤ v && v < 0xE000 then
          (pairUnits rest).map (Char.ofNat (0x10000 + (u - 0xD800) * 0x400 + (v - 0xDC00)) :: ·)
        else none
      | [] => none

/-- The character with a number, if there is one. -/
def scalar? (n : Nat) : Option Char := if n.isValidChar then some (Char.ofNat n) else none

/-- The text of a body in an encoding, if it is that. -/
def decode? (c : Charset) (body : List UInt8) : Option (List Char) :=
  match c with
  | utf8 mark =>
    let bytes := body.drop mark
    if Utf8.isValid bytes then some (Utf8.decode bytes) else none
  | utf16 order mark => (units16 order (body.drop mark)).bind pairUnits
  | utf32 order mark => (units32 order (body.drop mark)).bind fun us => us.mapM scalar?

end Charset

/-- The text of a body whose encoding is not named. A very short one is plain text. -/
def bodyText (body : List UInt8) : String :=
  let known := if body.length ≤ 3 then none else (Charset.guess? body).bind fun c => c.decode? body
  String.ofList (known.getD (Utf8.decode body))

/-! ## Heads -/

/-- The fields of a reply's head: names and what they say. -/
abbrev Head := List (String × String)

def isQuoteOrSpace (c : Char) : Bool := c == '"' || c == '\'' || c == ' '

/-- A text without quotes and blanks around it. -/
def bare (cs : List Char) : List Char :=
  ((cs.dropWhile isQuoteOrSpace).reverse.dropWhile isQuoteOrSpace).reverse

/-- What a parameter of a content type says, if it is the named one. -/
def parameter? (name : String) (text : List Char) : Option String :=
  match text.dropWhile (· != '=') with
  | [] => none
  | _ :: said =>
    let key := String.ofList (bare (text.takeWhile (· != '=')))
    if lower key == name then some (String.ofList (bare said)) else none

/-- The encoding that a head names, if it names one. Plain text is Latin-1 and JSON is UTF-8 unless
they say otherwise. -/
def Head.charset? (head : Head) : Option String := do
  let (_, content) ← head.find? fun field => lower field.1 == "content-type"
  let parts := content.splitOn ";"
  let kind := parts.headD ""
  match (parts.drop 1).findSome? fun part => parameter? "charset" part.toList with
  | some charset => some charset
  | none =>
    if 1 < (kind.splitOn "text").length then some "ISO-8859-1"
    else if 1 < (kind.splitOn "application/json").length then some "utf-8"
    else none

/-- The text of a body in the encoding of a name. -/
def namedText (charset : String) (body : List UInt8) : String :=
  if ["iso-8859-1", "latin-1", "latin1"].contains (lower charset) then
    String.ofList (body.map fun b => Char.ofNat b.toNat)
  else String.ofList (Utf8.decode body)

/-- The text that a head and a body are taken for. -/
def replyText (head : Head) (body : List UInt8) : String :=
  match head.charset? with
  | some charset => namedText charset body
  | none => bodyText body

end SourceAtlas
