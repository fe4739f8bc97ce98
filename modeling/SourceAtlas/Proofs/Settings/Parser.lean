import SourceAtlas.Proofs.Text.Decode
import SourceAtlas.Settings.Parser

/-!
# How far a file is read

A library that parses a file while it decodes it may come to an end early. Otherwise it comes to
know all of the file: its text, or that it has none, as a byte that cannot stand where it does shows
itself at the latest when the last piece is decoded.

Results:
* `parse_eq_some_iff`: what the library comes to on a file.
* `parse_eq_none_iff`: a bad byte is met just where the bytes are no text and no end comes before.
-/

namespace SourceAtlas.Parser

open Text

variable {δ ε : Type} (p : Parser δ ε)

/-- Behind some bytes, the library comes to an end on what it knows with the next piece; or it asks
    for more, and comes to the end behind a later one. -/
inductive EndsEarly : List UInt8 → List (List UInt8) → Except ε δ → Prop
  | here {seen piece : List UInt8} {rest : List (List UInt8)} {cs : List Char} {r : Except ε δ}
      (known : Utf8.begun? (seen ++ piece) = some cs)
      (ends : p.early (unifyBegun cs) = some r) : EndsEarly seen (piece :: rest) r
  | later {seen piece : List UInt8} {rest : List (List UInt8)} {cs : List Char} {r : Except ε δ}
      (known : Utf8.begun? (seen ++ piece) = some cs)
      (asks : p.early (unifyBegun cs) = none) (h : EndsEarly (seen ++ piece) rest r) :
      EndsEarly seen (piece :: rest) r

/-- What the library comes to on a file: to an early end, or to that of the whole text. -/
def Ends (bytes : List UInt8) (r : Except ε δ) : Prop :=
  p.EndsEarly [] (p.cut bytes) r ∨
    (∀ r', ¬ p.EndsEarly [] (p.cut bytes) r') ∧
      ∃ cs, bytes = Utf8.encode cs ∧ p.whole (unifyLines cs) = r

variable {p}

section Step

variable {seen piece : List UInt8} {rest : List (List UInt8)} {cs : List Char} {r r' : Except ε δ}

theorem not_endsEarly_nil : ¬ p.EndsEarly seen [] r := nofun

theorem not_endsEarly_of_none (h : Utf8.begun? (seen ++ piece) = none) :
    ¬ p.EndsEarly seen (piece :: rest) r := by
  intro hends
  cases hends with
  | here known => cases h.symm.trans known
  | later known => cases h.symm.trans known

theorem endsEarly_iff_eq (known : Utf8.begun? (seen ++ piece) = some cs)
    (ends : p.early (unifyBegun cs) = some r) : p.EndsEarly seen (piece :: rest) r' ↔ r = r' := by
  constructor
  · intro h
    cases h with
    | here known' ends' =>
      obtain rfl := Option.some.inj (known.symm.trans known')
      exact Option.some.inj (ends.symm.trans ends')
    | later known' asks =>
      obtain rfl := Option.some.inj (known.symm.trans known')
      cases ends.symm.trans asks
  · rintro rfl
    exact .here known ends

theorem endsEarly_iff_later (known : Utf8.begun? (seen ++ piece) = some cs)
    (asks : p.early (unifyBegun cs) = none) :
    p.EndsEarly seen (piece :: rest) r ↔ p.EndsEarly (seen ++ piece) rest r := by
  constructor
  · intro h
    cases h with
    | here known' ends =>
      obtain rfl := Option.some.inj (known.symm.trans known')
      cases asks.symm.trans ends
    | later _ _ h => exact h
  · exact .later known asks

end Step

/-- With no more pieces the library knows all. -/
theorem parseFrom_nil (seen : List UInt8) {r : Except ε δ} : p.parseFrom seen [] = some r ↔
    ∃ cs, seen = Utf8.encode cs ∧ p.whole (unifyLines cs) = r := by
  rw [parseFrom]
  by_cases hvalid : Utf8.isValid seen
  · obtain ⟨cs, rfl⟩ := (Utf8.isValid_iff seen).mp hvalid
    rw [if_pos hvalid, Option.some_inj, ofFile, String.toList_ofList, Utf8.decode_encode]
    constructor
    · exact fun h => ⟨cs, rfl, h⟩
    · rintro ⟨cs', heq, h⟩
      have hcs := congrArg Utf8.decode heq
      rw [Utf8.decode_encode, Utf8.decode_encode] at hcs
      rwa [hcs]
  · rw [if_neg hvalid]
    refine iff_of_false nofun ?_
    rintro ⟨cs, rfl, -⟩
    exact hvalid (Utf8.isValid_encode cs)

/-- What the library comes to behind some bytes. -/
theorem parseFrom_eq_some_iff (seen : List UInt8) (pieces : List (List UInt8)) {r : Except ε δ} :
    p.parseFrom seen pieces = some r ↔ p.EndsEarly seen pieces r ∨
      (∀ r', ¬ p.EndsEarly seen pieces r') ∧
        ∃ cs, seen ++ pieces.flatten = Utf8.encode cs ∧ p.whole (unifyLines cs) = r := by
  induction pieces generalizing seen with
  | nil =>
    rw [parseFrom_nil, List.flatten_nil, List.append_nil]
    simp [not_endsEarly_nil]
  | cons piece rest ih =>
    rw [parseFrom, List.flatten_cons, ← List.append_assoc]
    cases hknown : Utf8.begun? (seen ++ piece) with
    | none =>
      simp only [not_endsEarly_of_none hknown, false_or, reduceCtorEq, false_iff]
      rintro ⟨-, cs, heq, -⟩
      exact Utf8.begun?_ne_none heq hknown
    | some cs =>
      dsimp only
      cases hearly : p.early (unifyBegun cs) with
      | some r₀ =>
        simp only [endsEarly_iff_eq hknown hearly, Option.some_inj]
        refine (or_iff_left ?_).symm
        rintro ⟨hnone, -⟩
        exact hnone r₀ rfl
      | none =>
        simp only [endsEarly_iff_later hknown hearly]
        exact ih (seen ++ piece)

theorem parse_eq_some_iff (p : Parser δ ε) {bytes : List UInt8} {r : Except ε δ} :
    p.parse bytes = some r ↔ p.Ends bytes r := by
  rw [parse, parseFrom_eq_some_iff, List.nil_append, p.flatten_cut]
  rfl

/-- A bad byte is met just where the bytes are no text and no end comes before. -/
theorem parse_eq_none_iff (p : Parser δ ε) {bytes : List UInt8} : p.parse bytes = none ↔
    (∀ cs, bytes ≠ Utf8.encode cs) ∧ ∀ r, ¬ p.EndsEarly [] (p.cut bytes) r := by
  rw [Option.eq_none_iff_forall_ne_some]
  simp only [ne_eq, parse_eq_some_iff]
  constructor
  · intro h
    have hlong : ∀ r, ¬ p.EndsEarly [] (p.cut bytes) r := fun r hr => h r (Or.inl hr)
    exact ⟨fun cs heq => h _ (Or.inr ⟨hlong, cs, heq, rfl⟩), hlong⟩
  · rintro ⟨htext, hlong⟩ r (hr | ⟨-, cs, heq, -⟩)
    · exact hlong r hr
    · exact htext cs heq

end SourceAtlas.Parser
