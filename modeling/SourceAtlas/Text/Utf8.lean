/-!
# UTF-8

Encoding of text as bytes, and a decoding that accepts any bytes: each longest part that begins a
character but does not complete one, and each byte that can begin none, reads as the replacement
character.
-/

namespace SourceAtlas.Text.Utf8

/-! ## Encoding -/

/-- The bytes of a character. -/
def encodeChar (c : Char) : List UInt8 :=
  let n := c.toNat
  let tail (k : Nat) : UInt8 := UInt8.ofNat (0x80 + (n >>> k) % 0x40)
  if n < 0x80 then [UInt8.ofNat n]
  else if n < 0x800 then [UInt8.ofNat (0xC0 + (n >>> 6)), tail 0]
  else if n < 0x10000 then [UInt8.ofNat (0xE0 + (n >>> 12)), tail 6, tail 0]
  else [UInt8.ofNat (0xF0 + (n >>> 18)), tail 12, tail 6, tail 0]

def encode (cs : List Char) : List UInt8 := cs.flatMap encodeChar

/-! ## Decoding -/

/-- A character under way: how many bytes it still needs, the bounds of the next one, and the bits
so far. -/
structure Pending where
  owed : Nat
  low : Nat
  high : Nat
  bits : Nat

/-- The character that stands for what cannot be decoded. -/
def replacement : Char := '\uFFFD'

/-- What a byte between characters is: a character, the beginning of one, or neither. -/
inductive Lead where
  | whole (c : Char)
  | begins (p : Pending)
  | invalid

def lead (b : Nat) : Lead :=
  if b < 0x80 then .whole (Char.ofNat b)
  else if b < 0xC2 then .invalid
  else if b < 0xE0 then .begins ⟨1, 0x80, 0xBF, b - 0xC0⟩
  else if b < 0xF0 then
    .begins ⟨2, if b == 0xE0 then 0xA0 else 0x80, if b == 0xED then 0x9F else 0xBF, b - 0xE0⟩
  else if b < 0xF5 then
    .begins ⟨3, if b == 0xF0 then 0x90 else 0x80, if b == 0xF4 then 0x8F else 0xBF, b - 0xF0⟩
  else .invalid

/-- The characters of a byte between characters, and what is under way after it. -/
def start (b : Nat) : List Char × Option Pending :=
  match lead b with
  | .whole c => ([c], none)
  | .begins p => ([], some p)
  | .invalid => ([replacement], none)

/-- Decodes with a character under way. -/
def decodeFrom : Option Pending → List UInt8 → List Char
  | none, [] => []
  | some _, [] => [replacement]
  | none, b :: bs =>
    let (out, next) := start b.toNat
    out ++ decodeFrom next bs
  | some p, b :: bs =>
    if p.low ≤ b.toNat ∧ b.toNat ≤ p.high then
      let bits := p.bits * 0x40 + (b.toNat - 0x80)
      if p.owed ≤ 1 then Char.ofNat bits :: decodeFrom none bs
      else decodeFrom (some ⟨p.owed - 1, 0x80, 0xBF, bits⟩) bs
    else
      let (out, next) := start b.toNat
      replacement :: (out ++ decodeFrom next bs)

/-- Decodes any bytes. -/
def decode (bs : List UInt8) : List Char := decodeFrom none bs

/-- The characters that bytes complete, with one under way before them, unless one of the bytes
cannot stand where it does. At the end one may be under way. -/
def begunFrom : Option Pending → List UInt8 → Option (List Char)
  | _, [] => some []
  | none, b :: bs =>
    match lead b.toNat with
    | .whole c => (begunFrom none bs).map (c :: ·)
    | .begins p => begunFrom (some p) bs
    | .invalid => none
  | some p, b :: bs =>
    if p.low ≤ b.toNat ∧ b.toNat ≤ p.high then
      let bits := p.bits * 0x40 + (b.toNat - 0x80)
      if p.owed ≤ 1 then (begunFrom none bs).map (Char.ofNat bits :: ·)
      else begunFrom (some ⟨p.owed - 1, 0x80, 0xBF, bits⟩) bs
    else none

/-- The characters that bytes complete, if a text can begin with the bytes. -/
def begun? (bs : List UInt8) : Option (List Char) := begunFrom none bs

/-- Whether bytes decode without replacement: no part is left over. -/
def isValidFrom : Option Pending → List UInt8 → Bool
  | none, [] => true
  | some _, [] => false
  | none, b :: bs =>
    match lead b.toNat with
    | .whole _ => isValidFrom none bs
    | .begins p => isValidFrom (some p) bs
    | .invalid => false
  | some p, b :: bs =>
    p.low ≤ b.toNat && b.toNat ≤ p.high &&
      isValidFrom (if p.owed ≤ 1 then none else some ⟨p.owed - 1, 0x80, 0xBF, 0⟩) bs

/-- Whether bytes are the encoding of a text. -/
def isValid (bs : List UInt8) : Bool := isValidFrom none bs

end SourceAtlas.Text.Utf8
