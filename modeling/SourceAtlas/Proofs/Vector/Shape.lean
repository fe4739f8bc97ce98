import SourceAtlas.Proofs.Number.Overflow
import SourceAtlas.Vector.Basic

/-!
# Shapes of numbers in lists

Numbers in lists are an array where all lists of one depth have one length. The form that is
computed for them tells whether they are.

Results:
* `uniform_within_iff`: the parts of numbers in lists agree on all dimensions, of which there are no
  more than an array has, iff they have a shape of no more.
* `toDoubles_eq_tooLarge_iff`: numbers in lists are refused as too large iff they have such a shape
  and hold an integer beyond every double.
* `toDoubles_ofScalars`: the array of doubles that numbers in one list make.
-/

namespace SourceAtlas

open Number

namespace Nested

/-- Numbers in lists of the given dimensions. -/
inductive HasShape : List Nat → Nested → Prop
  | one (s : Scalar) : HasShape [] (.one s)
  | many {dims : List Nat} {ns : List Nested} : (∀ n ∈ ns, HasShape dims n) →
      HasShape (ns.length :: dims) (.many ns)

/-- What holds of a list of parts if it holds of the parts holds of all numbers in lists. -/
@[elab_as_elim]
theorem partInduction {P : Nested → Prop} (one : ∀ s, P (.one s))
    (many : ∀ ns, (∀ n ∈ ns, P n) → P (.many ns)) : ∀ n, P n
  | .one s => one s
  | .many ns => many ns fun n _ => partInduction one many n

/-- Dimensions up to the first that is zero: below an empty list there is nothing to measure. -/
def measured : List Nat → List Nat
  | [] => []
  | 0 :: _ => [0]
  | (d + 1) :: dims => (d + 1) :: measured dims

/-! ## Forms -/

theorem sharedDims_self (dims : List Nat) : sharedDims dims dims = dims := by
  induction dims with
  | nil => rfl
  | cons d dims ih => simp [sharedDims, ih]

theorem meet_self {f : Form} (h : f.uniform) : f.meet f = f := by
  cases f
  simp_all [Form.meet, sharedDims_self]

theorem eq_of_uniform_meet {f g : Form} (h : (f.meet g).uniform) : f = g ∧ g.uniform := by
  simp only [Form.meet, Bool.and_eq_true, beq_iff_eq] at h
  obtain ⟨⟨hf, hg⟩, hdims⟩ := h
  cases f
  cases g
  simp_all

theorem formOfAll_cons_cons (n m : Nested) (ns : List Nested) :
    formOfAll (n :: m :: ns) = n.form.meet (formOfAll (m :: ns)) := rfl

/-- Parts that agree on all dimensions have the form that they agree on. -/
theorem form_of_uniform {ns : List Nested} (h : (formOfAll ns).uniform) :
    ∀ n ∈ ns, n.form = formOfAll ns := by
  induction ns with
  | nil => simp
  | cons n ns ih =>
    cases ns with
    | nil =>
      intro m hm
      rw [List.mem_singleton.mp hm, formOfAll]
    | cons m ns =>
      rw [formOfAll_cons_cons] at h ⊢
      obtain ⟨heq, hrest⟩ := eq_of_uniform_meet h
      rw [heq, meet_self hrest, List.forall_mem_cons]
      exact ⟨heq, ih hrest⟩

/-- Parts of one form agree on it. -/
theorem formOfAll_of_forall {ns : List Nested} {f : Form} (hne : ns ≠ []) (hf : f.uniform)
    (h : ∀ n ∈ ns, n.form = f) : formOfAll ns = f := by
  induction ns with
  | nil => exact absurd rfl hne
  | cons n ns ih =>
    rw [List.forall_mem_cons] at h
    cases ns with
    | nil => exact h.1
    | cons m ns =>
      rw [formOfAll_cons_cons, h.1, ih (List.cons_ne_nil _ _) h.2, meet_self hf]

theorem HasShape.form_eq {dims : List Nat} {n : Nested} (h : HasShape dims n) :
    n.form = ⟨measured dims, true⟩ := by
  induction h with
  | one s => rfl
  | @many dims ns _ ih =>
    cases ns with
    | nil => rfl
    | cons n ns =>
      rw [form, formOfAll_of_forall (List.cons_ne_nil n ns) rfl ih]
      rfl

theorem hasShape_of_uniform {n : Nested} (h : n.form.uniform) : HasShape n.form.dims n := by
  induction n using partInduction with
  | one s => exact .one s
  | many ns ih =>
    rw [form] at h ⊢
    refine .many fun n hn => ?_
    have hform := form_of_uniform h n hn
    exact hform ▸ ih n hn (hform ▸ h)

theorem length_measured_le (dims : List Nat) : (measured dims).length ≤ dims.length := by
  induction dims using measured.induct with
  | case1 => exact Nat.le_refl _
  | case2 => simp [measured]
  | case3 d dims ih => simpa [measured] using ih

/-- The parts of numbers in lists agree on all dimensions, of which there are at most `limit`, iff
    they have a shape of at most as many. -/
theorem uniform_within_iff {n : Nested} {limit : Nat} :
    (n.form.uniform && n.form.dims.length ≤ limit) = true ↔
      ∃ dims, HasShape dims n ∧ dims.length ≤ limit := by
  rw [Bool.and_eq_true, decide_eq_true_iff]
  constructor
  · rintro ⟨huniform, hlength⟩
    exact ⟨_, hasShape_of_uniform huniform, hlength⟩
  · rintro ⟨dims, hshape, hlength⟩
    rw [hshape.form_eq]
    exact ⟨rfl, Nat.le_trans (length_measured_le dims) hlength⟩

/-! ## Doubles -/

theorem toFloat?_eq_none_iff {s : Scalar} :
    s.toFloat? = none ↔ ∃ k, s = .int k ∧ overflowBound ≤ k.natAbs := by
  cases s <;> simp [Scalar.toFloat?, floatOfInt?_eq_none_iff]

/-- Scalars are no doubles iff one of them is an integer beyond every double. -/
theorem mapM_toFloat?_eq_none_iff {ss : List Scalar} :
    ss.mapM Scalar.toFloat? = none ↔ ∃ k, .int k ∈ ss ∧ overflowBound ≤ k.natAbs := by
  induction ss with
  | nil => simp
  | cons s ss ih =>
    have hcons : (s :: ss).mapM Scalar.toFloat? = none ↔
        s.toFloat? = none ∨ ss.mapM Scalar.toFloat? = none := by
      rw [List.mapM_cons]
      cases s.toFloat? <;> cases ss.mapM Scalar.toFloat? <;> simp
    rw [hcons, ih, toFloat?_eq_none_iff]
    simp only [List.mem_cons, or_and_right, exists_or, eq_comm]

/-- Numbers in lists are refused as too large iff they have a shape, of no more dimensions than an
    array has, and hold an integer beyond every double. -/
theorem toDoubles_eq_tooLarge_iff {n : Nested} {limit : Nat} :
    n.toDoubles limit = .error .tooLarge ↔
      (∃ dims, HasShape dims n ∧ dims.length ≤ limit) ∧
        ∃ k, .int k ∈ n.scalars ∧ overflowBound ≤ k.natAbs := by
  rw [← uniform_within_iff, ← mapM_toFloat?_eq_none_iff]
  unfold toDoubles
  dsimp only
  split
  · rename_i h
    cases n.scalars.mapM Scalar.toFloat? <;> simp [h]
  · rename_i h
    -- The depth and the shape are looked at before any number.
    split <;> simp [h]

/-! ## Lists -/

/-- Numbers in one list. -/
def ofScalars (ss : List Scalar) : Nested := .many (ss.map .one)

theorem hasShape_ofScalars (ss : List Scalar) : HasShape [ss.length] (ofScalars ss) := by
  have hparts : ∀ n ∈ ss.map Nested.one, HasShape [] n := by
    intro n hn
    obtain ⟨s, -, rfl⟩ := List.mem_map.mp hn
    exact .one s
  have h := HasShape.many hparts
  rwa [List.length_map] at h

theorem scalars_ofScalars (ss : List Scalar) : (ofScalars ss).scalars = ss := by
  unfold ofScalars
  rw [scalars]
  induction ss with
  | nil => rfl
  | cons s ss ih =>
    rw [List.map_cons, scalarsOfAll, ih]
    rfl

theorem toDoubles_ofScalars (ss : List Scalar) :
    (ofScalars ss).toDoubles = match ss.mapM Scalar.toFloat? with
      | some xs => .ok ⟨[ss.length], xs⟩
      | none => .error .tooLarge := by
  have hform : (ofScalars ss).form = ⟨[ss.length], true⟩ := by
    rw [(hasShape_ofScalars ss).form_eq]
    cases ss.length <;> rfl
  unfold toDoubles
  rw [hform, scalars_ofScalars]
  rfl

end Nested

end SourceAtlas
