import SourceAtlas.Index.Pool
import SourceAtlas.Proofs.Store.Frame

/-!
# What is prepared of a file

A preparation looks at the store once, to ask for the hash that the store knows of the file's key,
and what it prepares is to be written under that key.

Results:
* `prepare_congr`: what a preparation depends on.
* `draft_prepare_cases`, `finish_cases`: all that preparing and finishing a file can come to.
* `sameAt_finish`, `store_finish`: what finishing a file leaves as it is.
* `family_of_finish`: with a store that can be used no file fails by a fault of the store itself.
-/

namespace SourceAtlas

section Preparations

variable {d : Disk} {embed : Embedder} {s : Store} {project path : Path.Absolute} {force : Bool}

/-! ## Preparing -/

/-- A preparation depends on a store only through what it knows of the key. -/
theorem prepare_congr {s' : Store} (h : s.hash (Path.documentKey project path) =
    s'.hash (Path.documentKey project path)) :
    prepare d embed s project force path = prepare d embed s' project force path := by
  unfold prepare
  dsimp only
  rw [h]

/-- All that preparing a file can come to: its reading fails, or what the store is asked; or the
    store knows its text, and nothing is to be written; or its text is prepared. -/
theorem prepare_cases (d : Disk) (embed : Embedder) (s : Store) (project path : Path.Absolute)
    (force : Bool) :
    (∃ e, d.read path.toString = .error e ∧ prepare d embed s project force path =
      ⟨Path.documentKey project path, [], none, .error (.file e)⟩) ∨
    ∃ bytes, d.read path.toString = .ok bytes ∧
      ((∃ e, s.hash (Path.documentKey project path) = .error e ∧
        prepare d embed s project force path =
          ⟨Path.documentKey project path, [], none, .error (.store e)⟩) ∨
      (force = false ∧ s.hash (Path.documentKey project path) =
          .ok (some (Text.Digest.ofText (Text.ofFile bytes))) ∧
        prepare d embed s project force path =
          ⟨Path.documentKey project path, [], none, .ok none⟩) ∨
      ((force = false → s.hash (Path.documentKey project path) ≠
          .ok (some (Text.Digest.ofText (Text.ofFile bytes)))) ∧
        prepare d embed s project force path =
          prepareText embed (Path.documentKey project path) (Text.ofFile bytes))) := by
  unfold prepare
  dsimp only
  cases d.read path.toString with
  | error e => exact Or.inl ⟨e, rfl, rfl⟩
  | ok bytes =>
    refine Or.inr ⟨bytes, rfl, ?_⟩
    cases force with
    | true => exact Or.inr (Or.inr ⟨fun h => (by cases h), rfl⟩)
    | false =>
      cases s.hash (Path.documentKey project path) with
      | error e => exact Or.inl ⟨e, rfl, rfl⟩
      | ok known =>
        by_cases hk : known = some (Text.Digest.ofText (Text.ofFile bytes))
        · exact Or.inr (Or.inl ⟨rfl, by rw [hk], by simp [hk]⟩)
        · exact Or.inr (Or.inr ⟨fun _ h => hk (Except.ok.inj h), by simp [hk]⟩)

@[simp] theorem key_prepare (d : Disk) (embed : Embedder) (s : Store) (project : Path.Absolute)
    (force : Bool) (path : Path.Absolute) :
    (prepare d embed s project force path).key = Path.documentKey project path := by
  rcases prepare_cases d embed s project path force with
    ⟨e, -, hp⟩ | ⟨bytes, -, ⟨e, -, hp⟩ | ⟨-, -, hp⟩ | ⟨-, hp⟩⟩ <;> rw [hp]
  rfl

/-- A text is prepared to be written under its key, unless the embedder fails. -/
theorem draft_prepareText_cases (embed : Embedder) (key text : String) :
    (∃ f, embed text = .error f ∧ (prepareText embed key text).draft = .error (.embedder f)) ∨
    (∃ draft, draft.path = some key ∧
      (prepareText embed key text).draft = .ok (some draft)) := by
  unfold prepareText
  dsimp only
  cases h : embed text with
  | error f => exact Or.inl ⟨f, rfl, rfl⟩
  | ok vector => exact Or.inr ⟨_, rfl, rfl⟩

/-- All that preparing a file can come to: its reading fails, or what the store is asked, or the
    embedder; or nothing is to be written, or a draft under the file's key. -/
theorem draft_prepare_cases (d : Disk) (embed : Embedder) (s : Store)
    (project path : Path.Absolute) (force : Bool) :
    (∃ e, (prepare d embed s project force path).draft = .error (.file e)) ∨
    (∃ e, s.hash (Path.documentKey project path) = .error e ∧
      (prepare d embed s project force path).draft = .error (.store e)) ∨
    (∃ text f, embed text = .error f ∧
      (prepare d embed s project force path).draft = .error (.embedder f)) ∨
    (prepare d embed s project force path).draft = .ok none ∨
    (∃ draft, draft.path = some (Path.documentKey project path) ∧
      (prepare d embed s project force path).draft = .ok (some draft)) := by
  rcases prepare_cases d embed s project path force with
    ⟨e, -, hp⟩ | ⟨bytes, -, ⟨e, he, hp⟩ | ⟨-, -, hp⟩ | ⟨-, hp⟩⟩
  · exact Or.inl ⟨e, by rw [hp]⟩
  · exact Or.inr (Or.inl ⟨e, he, by rw [hp]⟩)
  · exact Or.inr (Or.inr (Or.inr (Or.inl (by rw [hp]))))
  · rw [hp]
    rcases draft_prepareText_cases embed (Path.documentKey project path) (Text.ofFile bytes) with
      ⟨f, hf⟩ | hdraft
    · exact Or.inr (Or.inr (Or.inl ⟨_, f, hf⟩))
    · exact Or.inr (Or.inr (Or.inr (Or.inr hdraft)))

/-- What is prepared to be written is to be written under the key. -/
theorem path_of_prepare {draft : Draft}
    (h : (prepare d embed s project force path).draft = .ok (some draft)) :
    draft.path = some (Path.documentKey project path) := by
  rcases draft_prepare_cases d embed s project path force with
    ⟨e, h'⟩ | ⟨e, -, h'⟩ | ⟨text, f, -, h'⟩ | h' | ⟨draft', hpath, h'⟩ <;> rw [h'] at h <;> cases h
  exact hpath

/-- What is prepared with a store that can be used, and an embedder that never says it cannot, fails
    with no fault of a store. -/
theorem family_of_prepare (ho : s.isOpen)
    (hembed : ∀ text f, embed text = .error f → f.family ≠ .unavailable) {f : IndexFault}
    (h : (prepare d embed s project force path).draft = .error f) : f.family ≠ .unavailable := by
  rcases draft_prepare_cases d embed s project path force with
    ⟨e, h'⟩ | ⟨e, he, h'⟩ | ⟨text, g, hg, h'⟩ | h' | ⟨draft', -, h'⟩ <;> rw [h'] at h <;> cases h
  · simp only [IndexFault.family, FileError.family]
    split <;> simp
  · rw [Store.hash_eq ho] at he
    cases he
  · exact hembed text g hg

/-! ## Finishing -/

/-- Finishing a fresh preparation is indexing the file. -/
theorem finish_prepare : (prepare d embed s project force path).finish s =
    indexFile d embed s project force path := rfl

/-- All that finishing a preparation can come to: it failed before, there is nothing to write, or it
    is what writing the draft comes to. -/
theorem finish_cases (p : Preparation) (s : Store) :
    (∃ f, p.draft = .error f ∧ (p.finish s).result = .error f ∧ (p.finish s).store = s) ∨
    (p.draft = .ok none ∧ (p.finish s).result = .ok false ∧ (p.finish s).store = s) ∨
    (∃ draft, p.draft = .ok (some draft) ∧
      (p.finish s).result = ((s.upsert draft).1.mapError .store).map (fun _ => true) ∧
      (p.finish s).store = (s.upsert draft).2) := by
  unfold Preparation.finish Preparation.write
  cases hd : p.draft with
  | error f => exact Or.inl ⟨f, rfl, rfl, rfl⟩
  | ok draft? =>
    cases draft? with
    | none => exact Or.inr (Or.inl ⟨rfl, rfl, rfl⟩)
    | some draft =>
      refine Or.inr (Or.inr ⟨draft, rfl, ?_⟩)
      cases hu : s.upsert draft with
      | mk result s' => cases result <;> simp [hu, Except.mapError, Except.map]

/-- Finishing a file leaves all other keys as they are. -/
theorem sameAt_finish {s' : Store} {p : String} (h : Path.documentKey project path ≠ p)
    (s : Store) : s.SameAt ((prepare d embed s' project force path).finish s).store p := by
  rcases finish_cases (prepare d embed s' project force path) s with
    ⟨f, -, -, hs⟩ | ⟨-, -, hs⟩ | ⟨draft, hdraft, -, hs⟩
  · rw [hs]
    exact .refl s p
  · rw [hs]
    exact .refl s p
  · rw [hs]
    apply Store.sameAt_upsert
    rw [path_of_prepare hdraft]
    exact fun heq => h (Option.some.inj heq)

/-- A file that is not processed leaves the store as it is. -/
theorem store_finish {p : Preparation} (h : (p.finish s).result ≠ .ok true) :
    (p.finish s).store = s := by
  rcases finish_cases p s with ⟨f, -, -, hs⟩ | ⟨-, -, hs⟩ | ⟨draft, -, hr, hs⟩
  · exact hs
  · exact hs
  · rw [hs]
    cases hu : (s.upsert draft).1 with
    | ok u =>
      rw [hr, hu] at h
      exact absurd rfl h
    | error e => exact Store.upsert_error hu

/-- Finishing a file changes nothing about a store but its tables. -/
theorem finish_frame (p : Preparation) (s : Store) :
    (p.finish s).store = { s with tables := (p.finish s).store.tables } := by
  rcases finish_cases p s with ⟨f, -, -, hs⟩ | ⟨-, -, hs⟩ | ⟨draft, -, -, hs⟩
  · rw [hs]
  · rw [hs]
  · rw [hs, ← Store.write_upsert]
    exact Store.write_frame s _

theorem isOpen_finish (p : Preparation) (s : Store) : (p.finish s).store.isOpen = s.isOpen := by
  rw [finish_frame]

/-- With a store that can be used a file fails by a fault of a store only if its preparation did. -/
theorem family_of_finish (ho : s.isOpen) {p : Preparation}
    (hp : ∀ f, p.draft = .error f → f.family ≠ .unavailable) {f : IndexFault}
    (h : (p.finish s).result = .error f) : f.family ≠ .unavailable := by
  rcases finish_cases p s with ⟨g, hg, hr, -⟩ | ⟨-, hr, -⟩ | ⟨draft, -, hr, -⟩
  · rw [hr] at h
    cases h
    exact hp f hg
  · rw [hr] at h
    cases h
  · rw [hr] at h
    cases hu : (s.upsert draft).1 with
    | ok u =>
      rw [hu] at h
      cases h
    | error e =>
      rw [hu] at h
      cases h
      exact Store.family_of_upsert ho hu

end Preparations

end SourceAtlas
