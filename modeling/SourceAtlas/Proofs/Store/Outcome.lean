import SourceAtlas.Proofs.Store.Transaction
import SourceAtlas.Proofs.Vector.Shape

/-!
# What a write can come to

A document is written, or its transaction is rolled back with a reason. The one exception is a
vector of which a number, an integer, lies beyond every double: it is refused before a transaction
begins, and the refusal is of no family that callers recover from. Lists that are nested deeper than
an array has dimensions are refused before any of their numbers is looked at, so that they hide such
an integer.

Results:
* `storedVector_eq_tooLarge_iff`: which vectors are refused as too large.
* `upsert_outcome`: all that a write to an open store can come to.
-/

namespace SourceAtlas

open Number

/-- A vector is given as numbers in lists of one shape, which has no more dimensions than an array,
    and one of the numbers is an integer beyond every double. -/
def Overflows (limit : Nat) (v : Option Nested) : Prop :=
  ∃ ns, v = some (.many ns) ∧ (∃ dims, Nested.HasShape dims (.many ns) ∧ dims.length ≤ limit) ∧
    ∃ k, .int k ∈ (Nested.many ns).scalars ∧ overflowBound ≤ k.natAbs

theorem storedVector_eq_tooLarge_iff {v : Option Nested} {limit : Nat} :
    storedVector v limit = .error (.array .tooLarge) ↔ Overflows limit v := by
  unfold Overflows
  match v with
  | none => simp [storedVector]
  | some (.one (.float x)) => simp [storedVector]
  | some (.one (.int k)) => simp [storedVector]
  | some (.many ns) =>
    have hrefused := @Nested.toDoubles_eq_tooLarge_iff (.many ns) limit
    simp only [Option.some.injEq, Nested.many.injEq, exists_eq_left', ← hrefused]
    dsimp only [storedVector]
    cases (Nested.many ns).toDoubles limit with
    | error e => simp
    | ok a =>
      -- Doubles are refused for their shape or for not being finite, if at all.
      dsimp only
      split
      · simp
      · split <;> simp

namespace Store

/-- Every fault of a vector but one is a reason to roll back. -/
theorem upsert_of_vector_fault (s : Store) {d : Draft} {limit : Nat} {f : VectorFault}
    (hv : storedVector d.vector limit = .error f) (hf : f ≠ .array .tooLarge) :
    s.upsert d limit = (.error (.rolledBack d.path (.vector f)), s) := by
  unfold upsert
  rw [hv]
  split
  · rename_i h
    cases h
    exact absurd rfl hf
  · rename_i h
    cases h
    rfl
  · rename_i h
    cases h

/-- **A write fails only with a rollback.** However many dimensions an array may have: a write to an
    open store succeeds or is rolled back for its path, with a reason, and leaves the store as it
    was, whatever values its references bring, unless its vector holds an integer beyond every
    double in lists of one shape that are not nested too deep for an array. With such a vector it
    fails in another way; the store stays as it was. -/
theorem upsert_outcome {s : Store} (ho : s.isOpen) (d : Draft) (limit : Nat) :
    (¬ Overflows limit d.vector → (s.upsert d limit).1 = .ok () ∨
      ∃ f, s.upsert d limit = (.error (.rolledBack d.path f), s)) ∧
    (Overflows limit d.vector → s.upsert d limit = (.error .vectorTooLarge, s)) := by
  rw [← storedVector_eq_tooLarge_iff]
  constructor
  · intro hfits
    cases hv : storedVector d.vector limit with
    | error f =>
      have hne : f ≠ .array .tooLarge := fun hf => hfits (hf ▸ hv)
      exact Or.inr ⟨_, upsert_of_vector_fault s hv hne⟩
    | ok v =>
      cases h : (s.upsert d limit).1 with
      | ok u => exact Or.inl rfl
      | error e =>
        have hstore := upsert_error h
        have hrolled := h
        rw [upsert_of_vector hv] at hrolled
        obtain ⟨f, rfl⟩ := transaction_rolledBack ho hrolled
        exact Or.inr ⟨f, Prod.ext h hstore⟩
  · intro hv
    unfold upsert
    rw [hv]

/-- A draft whose vector holds an integer of four hundred digits. -/
def hugeDraft : Draft :=
  { sampleDraft with vector := some (.many [.one (.int (Nat.pow 10 400))]), references := [] }

/-- A draft with the same integer in a list more. -/
def deepDraft : Draft :=
  { hugeDraft with vector := some (.many [.many [.one (.int (Nat.pow 10 400))]]) }

/-- A draft whose references bring bytes and a number, and then a list, where texts belong. -/
def oddDraft : Draft :=
  { sampleDraft with
    references := [⟨some (.bytes [0x78]), .text "usage", .text " 3 ", some (.float 1.5)⟩,
      ⟨some (.list []), .text "usage", .int 4, none⟩] }

theorem overflows_hugeDraft : Overflows maxDimensions hugeDraft.vector := by
  have hone : ∀ n ∈ [Nested.one (.int (Nat.pow 10 400))], Nested.HasShape [] n := by
    intro n hn
    rw [List.mem_singleton.mp hn]
    exact .one _
  exact ⟨_, rfl, ⟨[1], .many hone, by decide⟩, Nat.pow 10 400, .head _, by decide +kernel⟩

theorem not_overflows_deepDraft : ¬ Overflows 1 deepDraft.vector := by
  rw [← storedVector_eq_tooLarge_iff]
  have hdeep : storedVector deepDraft.vector 1 = .error (.array (.tooDeep 1)) := by rfl
  rw [hdeep]
  exact nofun

theorem not_overflows_oddDraft : ¬ Overflows maxDimensions oddDraft.vector := by
  rintro ⟨ns, hns, -, k, hk, -⟩
  cases hns
  simp [Nested.scalars, Nested.scalarsOfAll] at hk

theorem upsert_outcome_sample :
    sample.isOpen ∧ Overflows maxDimensions hugeDraft.vector ∧ ¬ Overflows 1 deepDraft.vector ∧
      ¬ Overflows maxDimensions oddDraft.vector ∧
      sample.upsert hugeDraft = (.error .vectorTooLarge, sample) ∧
      ((sample.upsert deepDraft 1).1 = .ok () ∨
        ∃ f, sample.upsert deepDraft 1 = (.error (.rolledBack deepDraft.path f), sample)) ∧
      ((sample.upsert oddDraft).1 = .ok () ∨
        ∃ f, sample.upsert oddDraft = (.error (.rolledBack oddDraft.path f), sample)) :=
  ⟨rfl, overflows_hugeDraft, not_overflows_deepDraft, not_overflows_oddDraft,
    (upsert_outcome rfl hugeDraft _).2 overflows_hugeDraft,
    (upsert_outcome rfl deepDraft 1).1 not_overflows_deepDraft,
    (upsert_outcome rfl oddDraft _).1 not_overflows_oddDraft⟩

/-- A write to an open store that neither succeeds nor is rolled back. -/
theorem upsert_hugeDraft :
    sample.isOpen ∧ (sample.upsert hugeDraft).1 ≠ .ok () ∧
      ∀ p f, (sample.upsert hugeDraft).1 ≠ .error (.rolledBack p f) := by
  have h : (sample.upsert hugeDraft).1 = .error .vectorTooLarge := by
    unfold upsert
    rw [storedVector_eq_tooLarge_iff.mpr overflows_hugeDraft]
  rw [h]
  exact ⟨rfl, nofun, nofun⟩

end Store

end SourceAtlas
