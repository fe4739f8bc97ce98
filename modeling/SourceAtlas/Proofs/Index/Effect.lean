import SourceAtlas.Proofs.Index.Verdict

/-!
# What indexing does under a key

What a run does under the key of a file is told by the class of the file, and by whether the store
knew its text before: nothing is done unless the file is processed, and then its document alone is
there, with all references.

Results:
* `fileEffect_finish`: how the class of a file tells what was done under its key.
* `FileEffect.knows`, `FileEffect.skips`, `FileEffect.tries`: what a run leaves for the next.
-/

namespace SourceAtlas

/-! ## What a class tells -/

/-- A store knows the text that a file has, as far as hashes tell. -/
def Store.Knows (s : Store) (d : Disk) (project path : Path.Absolute) : Prop :=
  ∃ bytes, d.read path.toString = .ok bytes ∧
    s.hash (Path.documentKey project path) = .ok (some (Text.Digest.ofText (Text.ofFile bytes)))

theorem Store.knows_congr {s s' : Store} {d : Disk} {project path : Path.Absolute}
    (h : s'.hash (Path.documentKey project path) = s.hash (Path.documentKey project path)) :
    s'.Knows d project path ↔ s.Knows d project path := by
  unfold Store.Knows
  rw [h]

/-- What a run does under the key of a file that is prepared from a disk with an embedder, by the
    class of the file: `first` is the store before the run, `last` the one after it, and `asked`
    holds the texts that are embedded for the file. -/
inductive FileEffect (d : Disk) (embed : Embedder) (project : Path.Absolute) (force : Bool)
    (path : Path.Absolute) (first last : Store) : List String → Except IndexFault Bool → Prop where
  | skipped (hforce : force = false) (known : first.Knows d project path)
      (same : first.SameAt last (Path.documentKey project path)) :
      FileEffect d embed project force path first last [] (.ok false)
  | processed (doc : StoredDocument) (unknown : force = false → ¬ first.Knows d project path)
      (new : fileOutcome d embed project path = .ok doc) (borne : last.Bears doc) :
      FileEffect d embed project force path first last [doc.content] (.ok true)
  | failed (f : IndexFault) (asked : List String)
      (unknown : force = false → ¬ first.Knows d project path)
      (tried : ∀ bytes, d.read path.toString = .ok bytes → f.family ≠ .unavailable →
        asked = [Text.ofFile bytes])
      (same : first.SameAt last (Path.documentKey project path)) :
      FileEffect d embed project force path first last asked (.error f)

section Effects

variable {d : Disk} {embed : Embedder} {project path : Path.Absolute} {force : Bool}
variable {first s last : Store} {asked : List String} {r : Except IndexFault Bool}

/-- What is done later under other keys does not matter. -/
theorem FileEffect.later (h : FileEffect d embed project force path first s asked r)
    (hsame : s.SameAt last (Path.documentKey project path)) :
    FileEffect d embed project force path first last asked r := by
  cases h with
  | skipped hforce known same => exact .skipped hforce known (same.trans hsame)
  | processed doc unknown new borne =>
    refine .processed doc unknown new (borne.of_sameAt ?_)
    rwa [path_of_fileOutcome new]
  | failed f asked unknown tried same => exact .failed f asked unknown tried (same.trans hsame)

/-- A file that is skipped or fails leaves all under its key as it was. -/
theorem FileEffect.same (h : FileEffect d embed project force path first last asked r)
    (hr : FileClass.of r ≠ .processed) : first.SameAt last (Path.documentKey project path) := by
  cases h with
  | skipped hforce known same => exact same
  | processed doc unknown new borne => exact absurd rfl hr
  | failed f asked unknown tried same => exact same

/-- A file that is processed has its new document under its key. -/
theorem FileEffect.new (h : FileEffect d embed project force path first last asked r)
    (hr : FileClass.of r = .processed) :
    ∃ doc, fileOutcome d embed project path = .ok doc ∧ last.Bears doc := by
  cases h with
  | skipped hforce known same => cases hr
  | processed doc unknown new borne => exact ⟨doc, new, borne⟩
  | failed f asked unknown tried same => cases hr

/-- After a file was processed or skipped the store knows its text. -/
theorem FileEffect.knows (h : FileEffect d embed project force path first last asked r)
    (hr : FileClass.of r ≠ .failed) : last.Knows d project path := by
  cases h with
  | skipped hforce known same => exact (Store.knows_congr same.hash_eq).mpr known
  | processed doc unknown new borne =>
    obtain ⟨bytes, v, hread, -, hof⟩ := exists_of_fileOutcome new
    obtain ⟨hpath, -, hhash⟩ := parts_of_documentOf? hof
    refine ⟨bytes, hread, ?_⟩
    rw [← hpath, borne.hash_eq, hhash]
  | failed f asked unknown tried same => exact absurd rfl hr

/-- After a file failed that was not to be indexed by force, the store does not know its text. -/
theorem FileEffect.not_knows {f : IndexFault}
    (h : FileEffect d embed project false path first last asked (.error f)) :
    ¬ last.Knows d project path := by
  cases h with
  | failed f asked unknown tried same =>
    exact fun hknows => unknown rfl ((Store.knows_congr same.hash_eq).mp hknows)

/-- A file whose text is known is skipped, unless it is indexed by force. -/
theorem FileEffect.skips (h : FileEffect d embed project false path first last asked r)
    (hknows : first.Knows d project path) : r = .ok false := by
  cases h with
  | skipped hforce known same => rfl
  | processed doc unknown new borne => exact absurd hknows (unknown rfl)
  | failed f asked unknown tried same => exact absurd hknows (unknown rfl)

/-- A file whose text is not known is not skipped, and its text is embedded if it can be read. -/
theorem FileEffect.tries (h : FileEffect d embed project force path first last asked r)
    (hknows : ¬ first.Knows d project path)
    (hfamily : ∀ f, r = .error f → f.family ≠ .unavailable) :
    FileClass.of r ≠ .skipped ∧
      ∀ bytes, d.read path.toString = .ok bytes → Text.ofFile bytes ∈ asked := by
  cases h with
  | skipped hforce known same => exact absurd known hknows
  | processed doc unknown new borne =>
    refine ⟨by simp [FileClass.of], fun bytes hread => ?_⟩
    obtain ⟨bytes', v, hread', -, hof⟩ := exists_of_fileOutcome new
    obtain ⟨-, hcontent, -⟩ := parts_of_documentOf? hof
    cases hread.symm.trans hread'
    rw [hcontent]
    exact List.mem_singleton_self _
  | failed f asked unknown tried same =>
    refine ⟨by simp [FileClass.of], fun bytes hread => ?_⟩
    rw [tried bytes hread (hfamily f rfl)]
    exact List.mem_singleton_self _

/-- A text is not embedded while the store knows it, unless the file is indexed by force. -/
theorem asked_of_knows (h : s.Knows d project path) :
    (prepare d embed s project false path).asked = [] := by
  obtain ⟨bytes, hread, hknown⟩ := h
  rcases prepare_cases d embed s project path false with
    ⟨e, -, hp⟩ | ⟨bytes', hread', ⟨e, -, hp⟩ | ⟨-, -, hp⟩ | ⟨hunknown, -⟩⟩
  · rw [hp]
  · rw [hp]
  · rw [hp]
  · cases hread.symm.trans hread'
    exact absurd hknown (hunknown rfl)

/-- A text that is prepared is embedded, and written unless something fails. -/
theorem fileEffect_finish_text {bytes : List UInt8} (hread : d.read path.toString = .ok bytes)
    (unknown : force = false → ¬ first.Knows d project path)
    (hsame : first.SameAt s (Path.documentKey project path)) :
    FileEffect d embed project force path first
      ((prepareText embed (Path.documentKey project path) (Text.ofFile bytes)).finish s).store
      [Text.ofFile bytes]
      ((prepareText embed (Path.documentKey project path) (Text.ofFile bytes)).finish s).result := by
  have htried : ∀ bytes', d.read path.toString = .ok bytes' →
      [Text.ofFile bytes] = [Text.ofFile bytes'] := by
    intro bytes' h
    rw [hread] at h
    rw [Except.ok.inj h]
  have hdraft := draft_prepareText embed (Path.documentKey project path) (Text.ofFile bytes)
  rcases finish_cases (prepareText embed (Path.documentKey project path) (Text.ofFile bytes)) s with
    ⟨f, -, hr, hs⟩ | ⟨hnone, -, -⟩ | ⟨draft, hsome, hr, hs⟩
  · rw [hr, hs]
    exact .failed f _ unknown (fun bytes' h _ => htried bytes' h) hsame
  · rw [hnone] at hdraft
    cases hv : embed (Text.ofFile bytes) <;> rw [hv] at hdraft <;> cases hdraft
  · rw [hsome] at hdraft
    cases hv : embed (Text.ofFile bytes) with
    | error f => rw [hv] at hdraft; cases hdraft
    | ok v =>
      rw [hv] at hdraft
      cases hdraft
      rw [hr, hs]
      cases hu : (s.upsert (draftOf (Path.documentKey project path) (Text.ofFile bytes)
          (extracted (Path.documentKey project path) (Text.ofFile bytes)) v)).1 with
      | error e =>
        rw [Store.upsert_error hu]
        exact .failed _ _ unknown (fun bytes' h _ => htried bytes' h) hsame
      | ok u =>
        obtain ⟨doc, hdoc, hline, hborne⟩ := Store.exists_bears_of_upsert hu
        have hof := documentOf?_of_document? hdoc hline
        obtain ⟨-, hcontent, -⟩ := parts_of_documentOf? hof
        have hasked : [Text.ofFile bytes] = [doc.content] := by rw [hcontent]
        rw [hasked]
        refine .processed doc unknown ?_ hborne
        unfold fileOutcome textOutcome
        rw [hread]
        dsimp only
        rw [hv]
        dsimp only
        rw [hof]
        rfl

/-- **The class of a file tells what was done under its key**, whatever was written under other keys
    before, and between preparing and finishing the file. -/
theorem fileEffect_finish {s' : Store}
    (hhash : s'.hash (Path.documentKey project path) = first.hash (Path.documentKey project path))
    (hsame : first.SameAt s (Path.documentKey project path)) :
    FileEffect d embed project force path first
      ((prepare d embed s' project force path).finish s).store
      (prepare d embed s' project force path).asked
      ((prepare d embed s' project force path).finish s).result := by
  rcases prepare_cases d embed s' project path force with
    ⟨e, hread, hp⟩ | ⟨bytes, hread, ⟨e, he, hp⟩ | ⟨hforce, hknown, hp⟩ | ⟨hunknown, hp⟩⟩
  · rw [hp]
    refine .failed _ _ (fun _ => ?_) (fun bytes h => ?_) hsame
    · rintro ⟨bytes, h, -⟩
      rw [hread] at h
      cases h
    · rw [hread] at h
      cases h
  · rw [hp]
    rw [hhash] at he
    refine .failed _ _ (fun _ => ?_) (fun bytes _ hfamily => ?_) hsame
    · rintro ⟨bytes, -, h⟩
      rw [he] at h
      cases h
    · exact absurd (Store.family_of_hash he) hfamily
  · rw [hp]
    rw [hhash] at hknown
    exact .skipped hforce ⟨bytes, hread, hknown⟩ hsame
  · rw [hp]
    refine fileEffect_finish_text hread (fun hforce => ?_) hsame
    rintro ⟨bytes', h, hknown⟩
    rw [hread] at h
    cases h
    exact hunknown hforce (hhash.trans hknown)

end Effects

end SourceAtlas
