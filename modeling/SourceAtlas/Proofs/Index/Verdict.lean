import SourceAtlas.Proofs.Index.Document
import SourceAtlas.Proofs.Index.Tally

/-!
# What comes of the files of a run

In a store whose vectors are as long as the embedder's, what comes of a file depends on the file, on
the embedder, and on the document under the file's own key. No other file has that key, so all of it
can be told before the run.

Results:
* `indexFile_verdict`: what indexing one file comes to.
* `settled_indexFiles`: what indexing files one after another comes to.
* `Pool.settled_after`: what a run with workers comes to.
* `settleAll_of_mem`: the catalogue of a run, key by key, in whatever order files were handled.
-/

namespace SourceAtlas

/-! ## Verdicts -/

/-- What comes of a file: its text is known, or its document is written, or it fails. -/
inductive Verdict where
  | unchanged
  | written (doc : StoredDocument)
  | failed (f : IndexFault)

namespace Verdict

def ofOutcome : Except IndexFault StoredDocument → Verdict
  | .ok doc => written doc
  | .error f => failed f

def result : Verdict → Except IndexFault Bool
  | unchanged => .ok false
  | written _ => .ok true
  | failed f => .error f

def isUnchanged : Verdict → Bool
  | unchanged => true
  | written _ | failed _ => false

def isWritten : Verdict → Bool
  | written _ => true
  | unchanged | failed _ => false

/-- What is reported of a file that failed, unless its fault ends the run. -/
def failure? (key : String) : Verdict → Option FileFailure
  | failed f => (FailureKind.ofFamily? f.family).map fun kind => ⟨key, f.message, kind⟩
  | unchanged | written _ => none

theorem failure?_eq (key : String) (v : Verdict) : v.failure? key = failureOf key v.result := by
  cases v <;> rfl

theorem path_of_failure? {key : String} {v : Verdict} {x : FileFailure}
    (h : v.failure? key = some x) : x.path = key := by
  rw [failure?_eq] at h
  exact path_of_failureOf h

end Verdict

/-- What a verdict makes of a catalogue. -/
def Catalogue.settle (m : Catalogue) : Verdict → Catalogue
  | .written doc => Function.update m doc.path (some doc)
  | .unchanged | .failed _ => m

/-- A catalogue after verdicts about files. -/
def Catalogue.settleAll (m : Catalogue) (v : String → Verdict) (files : List String) : Catalogue :=
  files.foldl (fun m file => m.settle (v file)) m

/-- The document of a text, or why there is none. -/
def textOutcome (embed : Embedder) (key text : String) : Except IndexFault StoredDocument :=
  match embed text with
  | .error f => .error (.embedder f)
  | .ok vector => (documentOf? key text vector).mapError .store

/-- The document of a file, or why there is none. -/
def fileOutcome (d : Disk) (embed : Embedder) (project path : Path.Absolute) :
    Except IndexFault StoredDocument :=
  match d.read path.toString with
  | .error e => .error (.file e)
  | .ok bytes => textOutcome embed (Path.documentKey project path) (Text.ofFile bytes)

/-- Whether a catalogue has, as far as hashes tell, the text of a file already. -/
def known (d : Disk) (project : Path.Absolute) (m : Catalogue) (path : Path.Absolute) : Bool :=
  match d.read path.toString, m (Path.documentKey project path) with
  | .ok bytes, some doc => doc.hash == Text.Digest.ofText (Text.ofFile bytes)
  | _, _ => false

/-- What comes of a file with a catalogue. With `force` it does not matter what is known. -/
def verdict (d : Disk) (embed : Embedder) (project : Path.Absolute) (force : Bool) (m : Catalogue)
    (path : Path.Absolute) : Verdict :=
  if !force && known d project m path then .unchanged
  else .ofOutcome (fileOutcome d embed project path)

/-- The vectors that an embedder answers, so far as they can be stored, have one length. -/
def Embedder.Uniform (n : Nat) (embed : Embedder) : Prop :=
  ∀ text v xs, embed text = .ok v → storedVector (some v) = .ok xs → xs.length = n

section Verdicts

variable {d : Disk} {embed : Embedder} {project path : Path.Absolute} {force : Bool}
variable {s : Store} {m m' : Catalogue} {n : Nat}

/-! ## One file -/

theorem documentOf?_of_textOutcome {key text : String} {doc : StoredDocument}
    (h : textOutcome embed key text = .ok doc) :
    ∃ v, embed text = .ok v ∧ documentOf? key text v = .ok doc := by
  unfold textOutcome at h
  cases hv : embed text with
  | error f => rw [hv] at h; cases h
  | ok v =>
    rw [hv] at h
    dsimp only at h
    cases hof : documentOf? key text v with
    | error e => rw [hof] at h; cases h
    | ok doc' =>
      rw [hof] at h
      cases h
      exact ⟨v, rfl, hof⟩

theorem exists_of_fileOutcome {doc : StoredDocument}
    (h : fileOutcome d embed project path = .ok doc) :
    ∃ bytes v, d.read path.toString = .ok bytes ∧ embed (Text.ofFile bytes) = .ok v ∧
      documentOf? (Path.documentKey project path) (Text.ofFile bytes) v = .ok doc := by
  unfold fileOutcome at h
  cases hr : d.read path.toString with
  | error e => rw [hr] at h; cases h
  | ok bytes =>
    rw [hr] at h
    obtain ⟨v, hv, hof⟩ := documentOf?_of_textOutcome h
    exact ⟨bytes, v, rfl, hv, hof⟩

/-- The document of a file lies under the file's key. -/
theorem path_of_fileOutcome {doc : StoredDocument}
    (h : fileOutcome d embed project path = .ok doc) :
    doc.path = Path.documentKey project path := by
  obtain ⟨bytes, v, -, -, hof⟩ := exists_of_fileOutcome h
  exact (parts_of_documentOf? hof).1

theorem fileOutcome_of_verdict {doc : StoredDocument}
    (h : verdict d embed project force m path = .written doc) :
    fileOutcome d embed project path = .ok doc := by
  unfold verdict at h
  split at h
  · cases h
  · cases ho : fileOutcome d embed project path with
    | error f => rw [ho] at h; cases h
    | ok doc' => rw [ho] at h; cases h; rfl

theorem path_of_verdict {doc : StoredDocument}
    (h : verdict d embed project force m path = .written doc) :
    doc.path = Path.documentKey project path :=
  path_of_fileOutcome (fileOutcome_of_verdict h)

/-- The document of a file has a vector as long as all that the embedder answers. -/
theorem length_of_verdict (hn : embed.Uniform n) {doc : StoredDocument}
    (h : verdict d embed project force m path = .written doc) : doc.vector.length = n := by
  obtain ⟨bytes, v, -, hv, hof⟩ := exists_of_fileOutcome (fileOutcome_of_verdict h)
  exact hn _ v _ hv (documentOf?_eq_ok_iff.mp hof).1

/-- A verdict depends on a catalogue only through the document under the file's key. -/
theorem verdict_congr
    (h : m (Path.documentKey project path) = m' (Path.documentKey project path)) :
    verdict d embed project force m path = verdict d embed project force m' path := by
  unfold verdict known
  rw [h]

theorem Catalogue.Uniform.settle (hm : m.Uniform n) (hn : embed.Uniform n) :
    (m.settle (verdict d embed project force m' path)).Uniform n := by
  cases hv : verdict d embed project force m' path with
  | unchanged => exact hm
  | failed f => exact hm
  | written doc =>
    intro p doc' hdoc'
    simp only [Catalogue.settle, Function.update_apply] at hdoc'
    split at hdoc'
    · cases hdoc'
      exact length_of_verdict hn hv
    · exact hm p doc' hdoc'

theorem Store.Carries.hash_eq (h : s.Carries m) (key : String) :
    s.hash key = .ok ((m key).map StoredDocument.hash) := by
  rw [Store.hash_eq h.isOpen, h.holds.row?, Option.map_map]
  rfl

/-- What is prepared of a file with a store that carries a catalogue. -/
theorem prepare_eq (h : s.Carries m) : prepare d embed s project force path =
    match d.read path.toString with
    | .error e => ⟨Path.documentKey project path, [], none, .error (.file e)⟩
    | .ok bytes =>
      if !force && known d project m path then ⟨Path.documentKey project path, [], none, .ok none⟩
      else prepareText embed (Path.documentKey project path) (Text.ofFile bytes) := by
  unfold prepare known
  dsimp only
  cases hr : d.read path.toString with
  | error e => rfl
  | ok bytes =>
    rw [h.hash_eq]
    cases force with
    | true => rfl
    | false =>
      cases m (Path.documentKey project path) with
      | none => rfl
      | some doc => simp

/-- What finishing a text comes to that was prepared under a key. -/
theorem finish_prepareText (h : s.Carries m) (hm : m.Uniform n) (hn : embed.Uniform n)
    (key text : String) :
    ((prepareText embed key text).finish s).result =
        (Verdict.ofOutcome (textOutcome embed key text)).result ∧
      ((prepareText embed key text).finish s).store.Carries
        (m.settle (.ofOutcome (textOutcome embed key text))) := by
  have hdraft := draft_prepareText embed key text
  unfold textOutcome
  cases hv : embed text with
  | error f =>
    rw [hv] at hdraft
    rcases finish_cases (prepareText embed key text) s with
      ⟨g, hg, hr, hs⟩ | ⟨hg, -, -⟩ | ⟨draft, hg, -, -⟩ <;> rw [hdraft] at hg <;> cases hg
    rw [hr, hs]
    exact ⟨rfl, h⟩
  | ok v =>
    rw [hv] at hdraft
    rcases finish_cases (prepareText embed key text) s with
      ⟨g, hg, -, -⟩ | ⟨hg, -, -⟩ | ⟨draft, hg, hr, hs⟩ <;> rw [hdraft] at hg <;> cases hg
    obtain ⟨hresult, hcarries⟩ := h.upsert_draftOf hm key text (hn text v · hv)
    rw [hr, hs, hresult]
    dsimp only
    cases hof : documentOf? key text v with
    | error e =>
      rw [hof] at hcarries
      exact ⟨rfl, hcarries⟩
    | ok doc =>
      rw [hof] at hcarries
      exact ⟨rfl, hcarries⟩

/-- What indexing a file comes to. -/
theorem indexFile_verdict (h : s.Carries m) (hm : m.Uniform n) (hn : embed.Uniform n)
    (d : Disk) (project : Path.Absolute) (force : Bool) (path : Path.Absolute) :
    (indexFile d embed s project force path).result =
        (verdict d embed project force m path).result ∧
      (indexFile d embed s project force path).store.Carries
        (m.settle (verdict d embed project force m path)) := by
  rw [← finish_prepare, prepare_eq h]
  unfold verdict fileOutcome
  cases hr : d.read path.toString with
  | error e =>
    have hknown : known d project m path = false := by
      unfold known
      rw [hr]
    rw [hknown, Bool.and_false]
    exact ⟨rfl, h⟩
  | ok bytes =>
    dsimp only
    split
    · exact ⟨rfl, h⟩
    · exact finish_prepareText h hm hn _ _

end Verdicts

/-! ## Catalogues of runs -/

namespace Catalogue

variable {m m' : Catalogue} {p : String} {key : String → String} {v : String → Verdict}
variable {files : List String}

theorem settle_of_ne {v : Verdict} (h : ∀ doc, v = .written doc → doc.path ≠ p) :
    m.settle v p = m p := by
  cases v with
  | unchanged => rfl
  | failed f => rfl
  | written doc => exact Function.update_of_ne (Ne.symm (h doc rfl)) _ _

theorem settle_congr (v : Verdict) (h : m p = m' p) : m.settle v p = m'.settle v p := by
  cases v with
  | unchanged => exact h
  | failed f => exact h
  | written doc => simp only [settle, Function.update_apply, h]

/-- Keys of no file of a run stay as they are. -/
theorem settleAll_of_ne (hv : ∀ file doc, v file = .written doc → doc.path = key file)
    (hp : ∀ file ∈ files, key file ≠ p) : m.settleAll v files p = m p := by
  induction files generalizing m with
  | nil => rfl
  | cons file files ih =>
    rw [List.forall_mem_cons] at hp
    have hrest : (m.settle (v file)).settleAll v files p = m.settle (v file) p := ih hp.2
    refine hrest.trans (settle_of_ne fun doc hdoc => ?_)
    rw [hv file doc hdoc]
    exact hp.1

/-- The key of a file holds after a run what the file's own verdict makes of it, whatever the order
    of the files. -/
theorem settleAll_of_mem (hv : ∀ file doc, v file = .written doc → doc.path = key file)
    (hkeys : (files.map key).Nodup) {file : String} (hfile : file ∈ files) :
    m.settleAll v files (key file) = m.settle (v file) (key file) := by
  induction files generalizing m with
  | nil => cases hfile
  | cons f files ih =>
    rw [List.map_cons, List.nodup_cons] at hkeys
    have hcons : m.settleAll v (f :: files) = (m.settle (v f)).settleAll v files := rfl
    rw [hcons]
    rcases List.mem_cons.mp hfile with rfl | hfile
    · exact settleAll_of_ne hv fun g hg heq => hkeys.1 (heq ▸ List.mem_map_of_mem hg)
    · have hne : key f ≠ key file := fun heq => hkeys.1 (heq ▸ List.mem_map_of_mem hfile)
      rw [ih hkeys.2 hfile]
      exact settle_congr _ (settle_of_ne fun doc hdoc => by rwa [hv f doc hdoc])

end Catalogue

/-! ## Runs -/

/-- The key of a file of a project. -/
def Disk.key (d : Disk) (project : Path.Absolute) (file : String) : String :=
  Path.documentKey project (d.absolute file)

/-- What a run over files leaves behind of a store that carried a catalogue, and how it is tallied,
    where each file has a key and a verdict. -/
structure Settled (key : String → String) (v : String → Verdict) (m : Catalogue)
    (files : List String) (first last : TreeRun) : Prop where
  location : last.store.location = first.store.location
  store : last.store.Carries (m.settleAll v files)
  processed : last.tally.processed =
    first.tally.processed + files.countP fun file => (v file).isWritten
  skipped : last.tally.skipped =
    first.tally.skipped + files.countP fun file => (v file).isUnchanged
  failures : last.tally.failures =
    (files.filterMap fun file => (v file).failure? (key file)).reverse ++ first.tally.failures

section Runs

variable {d : Disk} {embed : Embedder} {project : Path.Absolute} {force : Bool}
variable {m : Catalogue} {n : Nat} {v : String → Verdict} {files : List String}

@[simp] theorem key_indexFile (s : Store) (path : Path.Absolute) :
    (indexFile d embed s project force path).key = Path.documentKey project path :=
  key_prepare d embed s project force path

/-- How a file is tallied, unless it ends the run. -/
theorem tally_add {run : TreeRun} {r : FileRun} {w : Verdict} (hr : r.result = w.result)
    (hended : (run.add r).ended = none) :
    (run.add r).tally.processed = run.tally.processed + (if w.isWritten then 1 else 0) ∧
      (run.add r).tally.skipped = run.tally.skipped + (if w.isUnchanged then 1 else 0) ∧
      (run.add r).tally.failures = (w.failure? r.key).toList ++ run.tally.failures := by
  rw [(Tally.add_of_goes_on hended).1, hr]
  cases w <;> exact ⟨rfl, rfl, rfl⟩

/-- The verdict about a file does not change when a file with another key is settled. -/
theorem verdict_settle {m' : Catalogue} {path path' : Path.Absolute}
    (h : Path.documentKey project path ≠ Path.documentKey project path') :
    verdict d embed project force (m.settle (verdict d embed project force m' path)) path' =
      verdict d embed project force m path' := by
  refine verdict_congr (Catalogue.settle_of_ne fun doc hdoc => ?_)
  rw [path_of_verdict hdoc]
  exact h

/-- A file more, before the others of a run. -/
theorem Settled.cons {key : String → String} {file : String} {first next last : TreeRun}
    (hlocation : next.store.location = first.store.location)
    (hprocessed : next.tally.processed =
      first.tally.processed + if (v file).isWritten then 1 else 0)
    (hskipped : next.tally.skipped = first.tally.skipped + if (v file).isUnchanged then 1 else 0)
    (hfailures : next.tally.failures =
      ((v file).failure? (key file)).toList ++ first.tally.failures)
    (h : Settled key v (m.settle (v file)) files next last) :
    Settled key v m (file :: files) first last where
  location := h.location.trans hlocation
  store := h.store
  processed := by
    rw [h.processed, hprocessed, List.countP_cons]
    omega
  skipped := by
    rw [h.skipped, hskipped, List.countP_cons]
    omega
  failures := by
    rw [h.failures, hfailures, List.filterMap_cons]
    cases (v file).failure? (key file) <;> simp

/-- Indexing files one after another comes to what their verdicts say. -/
theorem settled_indexFiles {run : TreeRun} (hkeys : (files.map (d.key project)).Nodup)
    (hv : ∀ file ∈ files, verdict d embed project force m (d.absolute file) = v file)
    (h : run.store.Carries m) (hm : m.Uniform n) (hn : embed.Uniform n)
    (hended : (indexFiles d embed project force run files).ended = none) :
    Settled (d.key project) v m files run (indexFiles d embed project force run files) := by
  induction files generalizing run m with
  | nil => exact ⟨rfl, h, rfl, rfl, rfl⟩
  | cons file files ih =>
    rw [List.map_cons, List.nodup_cons] at hkeys
    rw [List.forall_mem_cons] at hv
    rw [indexFiles_cons] at hended ⊢
    split at hended
    · rename_i hsome
      rw [hended] at hsome
      cases hsome
    · rename_i hnone
      rw [if_neg hnone]
      have hadded : (run.add (indexFile d embed run.store project force
          (d.absolute file))).ended = none := by simpa using hnone
      obtain ⟨hresult, hcarries⟩ :=
        indexFile_verdict h hm hn d project force (d.absolute file)
      obtain ⟨hprocessed, hskipped, hfailures⟩ := tally_add hresult hadded
      rw [hv.1] at hcarries hprocessed hskipped hfailures
      rw [key_indexFile] at hfailures
      -- What the store knows of the files to come is what it knew of them before the run.
      have hothers : ∀ g ∈ files,
          verdict d embed project force (m.settle (v file)) (d.absolute g) = v g := by
        intro g hg
        rw [← hv.2 g hg, ← hv.1]
        exact verdict_settle fun heq => hkeys.1 (List.mem_map.mpr ⟨g, hg, heq.symm⟩)
      have hrest := ih hkeys.2 hothers (by rwa [TreeRun.store_add])
        (by rw [← hv.1]; exact hm.settle hn) hended
      refine Settled.cons ?_ hprocessed hskipped hfailures hrest
      rw [TreeRun.store_add, ← finish_prepare, finish_frame]

end Runs

/-! ## Runs with workers -/

section Schedules

variable {d : Disk} {embed : Embedder} {project : Path.Absolute} {force : Bool}

/-- No two files of a walk have one key. -/
theorem nodup_keys (hd : d.Proper) (project : Path.Absolute) (rule : WalkRule) (path : String) :
    ((d.walkedFiles rule path).map (d.key project)).Nodup :=
  (Disk.nodup_walkedFiles hd rule path).map_on fun _ hf _ hg heq =>
    Disk.documentKey_walkedFiles hd project hf hg heq

namespace Move

theorem order_oneByOne (files : List String) : order (oneByOne files) = files := by
  induction files with
  | nil => rfl
  | cons file files ih =>
    have hcons : oneByOne (file :: files) = [.prepare file, .handle file] ++ oneByOne files := rfl
    rw [hcons, order_append, ih]
    rfl

/-- One worker follows a schedule. -/
theorem isSchedule_oneByOne (files : List String) : IsSchedule files (oneByOne files) where
  complete := by rw [order_oneByOne]
  prepared := by
    induction files with
    | nil =>
      intro before file after h
      simp [oneByOne] at h
    | cons f files ih =>
      intro before file after h
      have hcons : oneByOne (f :: files) = .prepare f :: .handle f :: oneByOne files := rfl
      rw [hcons] at h
      match before with
      | [] => cases h
      | [move] =>
        cases h
        exact List.mem_singleton_self _
      | _ :: _ :: before =>
        simp only [List.cons_append, List.cons.injEq] at h
        have hmem := ih before file after h.2.2
        exact List.mem_cons_of_mem _ (List.mem_cons_of_mem _ hmem)

end Move

namespace Pool

/-- A run with workers that goes through to its end is that of indexing one file after another. -/
theorem indexed_of_schedule (hd : d.Proper) {s : Store} {rule : WalkRule} {path : String}
    {moves : List Move} (hmoves : IsSchedule (d.walkedFiles rule path) moves)
    (hended : ((start d s rule path).after d embed project force moves).run.ended = none) :
    Indexed d embed project force (start d s rule path).run moves
      ((start d s rule path).after d embed project force moves) :=
  indexed_after (indexed_start d embed project force s rule path)
    (fun _ hf _ hg => Disk.documentKey_walkedFiles hd project hf hg)
    (follows_of_isSchedule hmoves (Disk.nodup_walkedFiles hd rule path)) fun _ => hended

/-- A run goes through to its end unless it ended at once or the store cannot be used. -/
theorem ended_eq_none {w : Pool} {moves : List Move} (hw : w.run.ended = none)
    (h : ∀ f, (w.after d embed project force moves).run.ended = some f →
      f.family ≠ .unavailable) :
    (w.after d embed project force moves).run.ended = none := by
  cases hf : (w.after d embed project force moves).run.ended with
  | none => rfl
  | some f =>
    rcases ended_after hf with hbegun | hunavailable
    · rw [hw] at hbegun
      cases hbegun
    · exact absurd hunavailable (h f hf)

/-- A run with workers that goes through to its end comes to what the verdicts say of its files,
    which can be told before it begins. -/
theorem settled_after (hd : d.Proper) {s : Store} {m : Catalogue} {n : Nat} (h : s.Carries m)
    (hm : m.Uniform n) (hn : embed.Uniform n) {rule : WalkRule} {path : String}
    {moves : List Move} (hmoves : IsSchedule (d.walkedFiles rule path) moves)
    (hended : ((start d s rule path).after d embed project force moves).run.ended = none) :
    Settled (d.key project) (fun file => verdict d embed project force m (d.absolute file)) m
      (Move.order moves) (start d s rule path).run
      ((start d s rule path).after d embed project force moves).run := by
  have hrun := (indexed_of_schedule hd hmoves hended).run
  rw [hrun] at hended ⊢
  have hkeys : ((Move.order moves).map (d.key project)).Nodup :=
    (hmoves.complete.map _).nodup_iff.mpr (nodup_keys hd project rule path)
  exact settled_indexFiles hkeys (fun _ _ => rfl) h hm hn hended

end Pool

end Schedules

end SourceAtlas
