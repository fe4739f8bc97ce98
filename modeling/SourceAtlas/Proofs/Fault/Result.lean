import Mathlib.Data.List.Basic

/-!
# Results that may fail

Steps that may fail succeed together iff each succeeds in turn, and fail as the first that does.

Results:
* `bind_eq_ok_iff`, `bind_eq_error_iff`: two steps, one after the other.
* `ite_error_eq_ok_iff`: a step that is only taken if nothing speaks against it.
* `mapError_eq_ok_iff`, `mapError_eq_error_iff`: a step whose fault is told in other words.
* `toOption_eq_some_iff`: a step whose fault is left out.
* `mapM_eq_error_iff`: one step for each member of a list.
-/

namespace SourceAtlas

/-! ## Two steps -/

section

variable {α β ε : Type} {x : Except ε α} {f : α → Except ε β}

theorem ok_bind (a : α) (f : α → Except ε β) : .ok a >>= f = f a := rfl

theorem throw_bind (e : ε) (f : α → Except ε β) : throw e >>= f = .error e := rfl

theorem pure_eq_ok_iff {a b : α} : (pure a : Except ε α) = .ok b ↔ b = a :=
  ⟨fun h => (Except.ok.inj h).symm, fun h => h ▸ rfl⟩

theorem ite_error_eq_ok_iff {c : Prop} [Decidable c] {e : ε} {a : α} :
    (if c then .error e else x) = .ok a ↔ ¬ c ∧ x = .ok a := by
  split <;> simp_all

theorem bind_eq_ok_iff {b : β} : x >>= f = .ok b ↔ ∃ a, x = .ok a ∧ f a = .ok b := by
  cases x <;> simp [bind, Except.bind]

theorem bind_eq_error_iff {e : ε} :
    x >>= f = .error e ↔ x = .error e ∨ ∃ a, x = .ok a ∧ f a = .error e := by
  cases x <;> simp [bind, Except.bind]

end

/-! ## Faults in other words, and left out -/

section

variable {α ε ε' : Type} {result : Except ε α} {g : ε → ε'}

theorem mapError_eq_ok_iff {a : α} : result.mapError g = .ok a ↔ result = .ok a := by
  cases result with
  | error e => exact ⟨nofun, nofun⟩
  | ok b => exact ⟨fun h => congrArg Except.ok (Except.ok.inj h),
      fun h => congrArg Except.ok (Except.ok.inj h)⟩

theorem mapError_eq_error_iff {e' : ε'} :
    result.mapError g = .error e' ↔ ∃ e, result = .error e ∧ g e = e' := by
  cases result with
  | error e =>
    constructor
    · intro h
      exact ⟨e, rfl, Except.error.inj h⟩
    · rintro ⟨_, h, rfl⟩
      cases h
      rfl
  | ok b => exact ⟨nofun, nofun⟩

end

theorem toOption_eq_some_iff {α ε : Type} {result : Except ε α} {a : α} :
    result.toOption = some a ↔ result = .ok a := by
  cases result <;> simp [Except.toOption]

/-! ## Lists -/

section

variable {α β ε : Type} {f : α → Except ε β} {as : List α}

theorem mapM_ne_nil {bs : List β} (h : as.mapM f = .ok bs) (has : as ≠ []) : bs ≠ [] := by
  cases as with
  | nil => exact absurd rfl has
  | cons a as =>
    rw [List.mapM_cons] at h
    cases ha : f a with
    | error e => rw [ha] at h; cases h
    | ok b =>
      cases hs : as.mapM f with
      | error e => rw [ha, hs] at h; cases h
      | ok bs' => rw [ha, hs] at h; cases h; exact List.cons_ne_nil b bs'

theorem mapM_cons_eq_error_iff {a : α} {e : ε} : (a :: as).mapM f = .error e ↔
    f a = .error e ∨ (∃ b, f a = .ok b) ∧ as.mapM f = .error e := by
  rw [List.mapM_cons]
  cases f a with
  | error e' => simp [bind, Except.bind]
  | ok b => cases as.mapM f <;> simp [bind, Except.bind, pure, Except.pure]

/-- A list fails as the first of its members that does. -/
theorem mapM_eq_error_iff {e : ε} : as.mapM f = .error e ↔
    ∃ before a after, as = before ++ a :: after ∧ (∀ u ∈ before, ∃ b, f u = .ok b) ∧
      f a = .error e := by
  induction as with
  | nil => simp [pure, Except.pure]
  | cons a as ih =>
    rw [mapM_cons_eq_error_iff, ih]
    constructor
    · rintro (ha | ⟨ha, before, a', after, rfl, hbefore, ha'⟩)
      · exact ⟨[], a, as, rfl, by simp, ha⟩
      · exact ⟨a :: before, a', after, rfl, List.forall_mem_cons.mpr ⟨ha, hbefore⟩, ha'⟩
    · rintro ⟨before, a', after, has, hbefore, ha'⟩
      cases before with
      | nil =>
        cases has
        exact Or.inl ha'
      | cons b before =>
        cases has
        rw [List.forall_mem_cons] at hbefore
        exact Or.inr ⟨hbefore.1, before, a', after, rfl, hbefore.2, ha'⟩

end

end SourceAtlas
