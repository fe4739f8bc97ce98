import Mathlib.Data.List.Induction
import SourceAtlas.Proofs.Files.Walk
import SourceAtlas.Proofs.Index.Preparation

/-!
# Runs with workers are runs one by one

What a worker prepares depends on the store only through the hash that the store knows of the file's
key. No other file has that key, so that nothing written in between makes the preparation stale.
In whatever order files are prepared, the run is that of indexing them one after another in the
order in which they were handled.

Results:
* `indexed_after`: what always holds of a run whose moves follow a schedule.
* `usable_after`: a run with a store that can be used goes through to its end.
* `indexTree_eq_run`: indexing a tree is a run with one worker.
* `pool_sequential`: a whole run with workers.
-/

namespace SourceAtlas

/-! ## One after another -/

section Sequence

variable {d : Disk} {embed : Embedder} {project : Path.Absolute} {force : Bool}

@[simp] theorem TreeRun.store_add (run : TreeRun) (r : FileRun) : (run.add r).store = r.store := by
  unfold TreeRun.add
  dsimp only
  split <;> rfl

/-- One file more is indexed with the store that those before it leave. -/
theorem indexEach_append (s : Store) (files : List String) (file : String) :
    indexEach d embed project force s (files ++ [file]) =
      let (done, store) := indexEach d embed project force s files
      let r := indexFile d embed store project force (d.absolute file)
      (done ++ [(file, r.result)], r.store) := by
  induction files generalizing s with
  | nil => rfl
  | cons f files ih =>
    rw [List.cons_append, indexEach, indexEach]
    dsimp only
    rw [ih]
    rfl

theorem indexFiles_cons (run : TreeRun) (file : String) (files : List String) :
    indexFiles d embed project force run (file :: files) =
      if (run.add (indexFile d embed run.store project force (d.absolute file))).ended.isSome then
        run.add (indexFile d embed run.store project force (d.absolute file))
      else
        indexFiles d embed project force
          (run.add (indexFile d embed run.store project force (d.absolute file))) files := by
  rw [indexFiles]

/-- A run that has not ended goes on with one file more. -/
theorem indexFiles_append {run : TreeRun} {files : List String} (file : String)
    (h : (indexFiles d embed project force run files).ended = none) :
    indexFiles d embed project force run (files ++ [file]) =
      (indexFiles d embed project force run files).add
        (indexFile d embed (indexFiles d embed project force run files).store project force
          (d.absolute file)) := by
  induction files generalizing run with
  | nil =>
    rw [List.nil_append, indexFiles_cons, indexFiles, indexFiles]
    exact ite_self _
  | cons f files ih =>
    rw [indexFiles_cons] at h
    rw [List.cons_append, indexFiles_cons, indexFiles_cons]
    split at h
    · rename_i hended
      rw [h] at hended
      cases hended
    · rename_i hended
      rw [if_neg hended, if_neg hended]
      exact ih h

end Sequence

/-! ## Moves -/

namespace Move

theorem order_append (ms ns : List Move) : order (ms ++ ns) = order ms ++ order ns :=
  List.filterMap_append

@[simp] theorem order_append_prepare (moves : List Move) (file : String) :
    order (moves ++ [.prepare file]) = order moves := by
  simp [order]

@[simp] theorem order_append_handle (moves : List Move) (file : String) :
    order (moves ++ [.handle file]) = order moves ++ [file] := by
  simp [order]

end Move

namespace Pool

variable {d : Disk} {embed : Embedder} {project : Path.Absolute} {force : Bool}

theorem after_append (w : Pool) (moves : List Move) (move : Move) :
    w.after d embed project force (moves ++ [move]) =
      (w.after d embed project force moves).step d embed project force move := by
  unfold after
  rw [List.foldl_append]
  rfl

/-! ## One move -/

section Moves

variable {w : Pool} {file : String}

theorem ready_step_prepare (w : Pool) (file f : String) :
    (w.step d embed project force (.prepare file)).ready f =
      if f = file then some (prepare d embed w.run.store project force (d.absolute file))
      else w.ready f := by
  simp only [step, beq_iff_eq]

theorem step_handle (he : w.run.ended = none) {p : Preparation} (hp : w.ready file = some p) :
    w.step d embed project force (.handle file) =
      { w with
        handled := w.handled ++ [(file, (p.finish w.run.store).result)]
        run := w.run.add (p.finish w.run.store) } := by
  simp only [step, he, hp]

/-- All that handling a file can come to: nothing, where the run has ended or the file was not
    prepared, or else what was prepared is written and counted. -/
theorem step_handle_cases (w : Pool) (file : String) :
    w.step d embed project force (.handle file) = w ∨
    ∃ p, w.run.ended = none ∧ w.ready file = some p ∧
      w.step d embed project force (.handle file) =
        { w with
          handled := w.handled ++ [(file, (p.finish w.run.store).result)]
          run := w.run.add (p.finish w.run.store) } := by
  cases he : w.run.ended with
  | some f => exact Or.inl (by simp only [step, he])
  | none =>
    cases hp : w.ready file with
    | none => exact Or.inl (by simp only [step, he, hp])
    | some p => exact Or.inr ⟨p, rfl, rfl, step_handle he hp⟩

/-- A run that has ended stays as it is. -/
theorem run_step_of_ended {f : IndexFault} (h : w.run.ended = some f) (move : Move) :
    (w.step d embed project force move).run = w.run := by
  cases move with
  | prepare file => rfl
  | handle file =>
    rcases step_handle_cases w file with hs | ⟨p, he, -, -⟩
    · rw [hs]
    · rw [he] at h
      cases h

theorem ended_step {move : Move} (h : (w.step d embed project force move).run.ended = none) :
    w.run.ended = none := by
  cases he : w.run.ended with
  | none => rfl
  | some f =>
    rw [run_step_of_ended he, he] at h
    cases h

end Moves

/-! ## Runs that follow a schedule -/

/-- Moves that a schedule for files begins with. -/
structure Follows (files : List String) (moves : List Move) : Prop where
  files : ∀ f ∈ Move.order moves, f ∈ files
  nodup : (Move.order moves).Nodup
  prepared : ∀ before file after, moves = before ++ .handle file :: after → .prepare file ∈ before

theorem Follows.of_append {files : List String} {moves more : List Move}
    (h : Follows files (moves ++ more)) : Follows files moves where
  files := by
    intro f hf
    apply h.files
    rw [Move.order_append]
    exact List.mem_append_left _ hf
  nodup := by
    have hnodup := h.nodup
    rw [Move.order_append] at hnodup
    exact hnodup.of_append_left
  prepared := by
    intro before file after heq
    exact h.prepared before file (after ++ more) (by rw [heq, List.append_assoc]; rfl)

/-- A file is handled that was not handled before, and was prepared. -/
theorem Follows.handle {files : List String} {moves : List Move} {file : String}
    (h : Follows files (moves ++ [.handle file])) :
    file ∈ files ∧ file ∉ Move.order moves ∧ .prepare file ∈ moves := by
  have hfiles := h.files
  have hnodup := h.nodup
  rw [Move.order_append_handle] at hfiles hnodup
  refine ⟨hfiles file (by simp), fun hmem => ?_, h.prepared moves file [] rfl⟩
  exact (List.nodup_append.mp hnodup).2.2 file hmem file (by simp) rfl

theorem follows_of_isSchedule {files : List String} {moves : List Move}
    (h : IsSchedule files moves) (hfiles : files.Nodup) : Follows files moves where
  files := fun _ hf => h.complete.mem_iff.mp hf
  nodup := h.complete.nodup_iff.mpr hfiles
  prepared := h.prepared

/-- What holds of a run after moves that follow a schedule: what is ready and not yet handled is as
    if it were prepared now, and so far the run is that of indexing one file after another. -/
structure Indexed (d : Disk) (embed : Embedder) (project : Path.Absolute) (force : Bool)
    (first : TreeRun) (moves : List Move) (w : Pool) : Prop where
  ready : ∀ file, .prepare file ∈ moves → (w.ready file).isSome
  fresh : ∀ file ∈ first.files, file ∉ Move.order moves → ∀ p, w.ready file = some p →
    p = prepare d embed w.run.store project force (d.absolute file)
  handled : indexEach d embed project force first.store (Move.order moves) =
    (w.handled, w.run.store)
  run : w.run = indexFiles d embed project force first (Move.order moves)

theorem indexed_start (d : Disk) (embed : Embedder) (project : Path.Absolute) (force : Bool)
    (s : Store) (rule : WalkRule) (path : String) :
    Indexed d embed project force (start d s rule path).run [] (start d s rule path) where
  ready := by simp
  fresh := by
    intro file _ _ p hp
    cases hp
  handled := rfl
  run := rfl

variable {first : TreeRun} {moves : List Move} {w : Pool} {file : String}

/-- A file is prepared. -/
theorem Indexed.prepare (h : Indexed d embed project force first moves w) (file : String) :
    Indexed d embed project force first (moves ++ [.prepare file])
      (w.step d embed project force (.prepare file)) where
  ready := by
    intro f hf
    rw [ready_step_prepare]
    split
    · rfl
    · rename_i hne
      exact h.ready f (by simpa [hne] using hf)
  fresh := by
    intro f hf horder p hp
    rw [Move.order_append_prepare] at horder
    rw [ready_step_prepare] at hp
    split at hp
    · rename_i heq
      rw [heq]
      exact (Option.some.inj hp).symm
    · exact h.fresh f hf horder p hp
  handled := by
    rw [Move.order_append_prepare]
    exact h.handled
  run := by
    rw [Move.order_append_prepare]
    exact h.run

/-- A file is handled, and no other preparation becomes stale by it. -/
theorem Indexed.handle (h : Indexed d embed project force first moves w)
    (hkeys : ∀ f ∈ first.files, ∀ g ∈ first.files,
      Path.documentKey project (d.absolute f) = Path.documentKey project (d.absolute g) → f = g)
    (hfile : file ∈ first.files) (hnew : file ∉ Move.order moves)
    (hready : .prepare file ∈ moves) (hended : w.run.ended = none) :
    Indexed d embed project force first (moves ++ [.handle file])
      (w.step d embed project force (.handle file)) := by
  obtain ⟨p, hp⟩ := Option.isSome_iff_exists.mp (h.ready file hready)
  rw [step_handle hended hp, h.fresh file hfile hnew p hp, finish_prepare]
  constructor
  case ready =>
    intro f hf
    have hmem : .prepare f ∈ moves := by simpa using hf
    exact h.ready f hmem
  case fresh =>
    intro f hf horder q hq
    rw [Move.order_append_handle, List.mem_append, not_or, List.mem_singleton] at horder
    have hne : Path.documentKey project (d.absolute file) ≠
        Path.documentKey project (d.absolute f) :=
      fun heq => horder.2 (hkeys file hfile f hf heq).symm
    rw [h.fresh f hf horder.1 q hq]
    apply prepare_congr
    dsimp only
    rw [TreeRun.store_add, ← finish_prepare, (sameAt_finish hne _).hash_eq]
  case handled =>
    rw [Move.order_append_handle, indexEach_append, h.handled]
    simp only [TreeRun.store_add]
  case run =>
    rw [h.run] at hended
    rw [Move.order_append_handle, indexFiles_append file hended, ← h.run]

/-- After moves of which each handles a file of the run, once and after it was prepared, the run is
    that of indexing one file after another. -/
theorem indexed_after {w₀ : Pool} (h₀ : Indexed d embed project force first [] w₀)
    (hkeys : ∀ f ∈ first.files, ∀ g ∈ first.files,
      Path.documentKey project (d.absolute f) = Path.documentKey project (d.absolute g) → f = g)
    (h : Follows first.files moves)
    (hended : Move.order moves ≠ [] →
      (w₀.after d embed project force moves).run.ended = none) :
    Indexed d embed project force first moves (w₀.after d embed project force moves) := by
  induction moves using List.reverseRecOn with
  | nil => exact h₀
  | append_singleton moves move ih =>
    rw [after_append] at hended ⊢
    have ih := ih h.of_append fun hne => ended_step (hended fun hnil => hne (by
      rw [Move.order_append] at hnil
      exact (List.append_eq_nil_iff.mp hnil).1))
    cases move with
    | prepare file => exact ih.prepare file
    | handle file =>
      rw [Move.order_append_handle] at hended
      obtain ⟨hfile, hnew, hready⟩ := h.handle
      exact ih.handle hkeys hfile hnew hready (ended_step (hended (by simp)))

/-! ## How a run ends -/

theorem ofFamily?_eq_none_iff {f : FaultFamily} :
    FailureKind.ofFamily? f = none ↔ f = .unavailable := by
  cases f <;> simp [FailureKind.ofFamily?]

theorem ended_add {run : TreeRun} {r : FileRun} {f : IndexFault}
    (h : (run.add r).ended = some f) :
    run.ended = some f ∨ r.result = .error f ∧ f.family = .unavailable := by
  unfold TreeRun.add Tally.count at h
  dsimp only at h
  cases hr : r.result with
  | ok written => cases written <;> simp_all
  | error g =>
    rw [hr] at h
    dsimp only at h
    cases hk : FailureKind.ofFamily? g.family with
    | some kind => simp_all
    | none =>
      rw [hk] at h
      cases h
      exact Or.inr ⟨rfl, ofFamily?_eq_none_iff.mp hk⟩

/-- Only a store that cannot be used ends a run that has begun. -/
theorem ended_of_step {w : Pool} {move : Move} {f : IndexFault}
    (h : (w.step d embed project force move).run.ended = some f) :
    w.run.ended = some f ∨ f.family = .unavailable := by
  cases move with
  | prepare file => exact Or.inl h
  | handle file =>
    rcases step_handle_cases w file with hs | ⟨p, -, -, hs⟩
    · rw [hs] at h
      exact Or.inl h
    · rw [hs] at h
      exact (ended_add h).imp_right And.right

theorem ended_after {w : Pool} {f : IndexFault}
    (h : (w.after d embed project force moves).run.ended = some f) :
    w.run.ended = some f ∨ f.family = .unavailable := by
  induction moves using List.reverseRecOn with
  | nil => exact Or.inl h
  | append_singleton moves move ih =>
    rw [after_append] at h
    exact (ended_of_step h).elim ih Or.inr

/-- What always holds of a run with a store that can be used. -/
structure Usable (w : Pool) : Prop where
  isOpen : w.run.store.isOpen
  ready : ∀ file p, w.ready file = some p → ∀ f, p.draft = .error f → f.family ≠ .unavailable
  ended : ∀ f, w.run.ended = some f → f.family ≠ .unavailable

theorem Usable.step {w : Pool} (h : w.Usable)
    (hembed : ∀ text f, embed text = .error f → f.family ≠ .unavailable) (move : Move) :
    (w.step d embed project force move).Usable := by
  cases move with
  | prepare file =>
    refine ⟨h.isOpen, fun f p hp => ?_, h.ended⟩
    rw [ready_step_prepare] at hp
    split at hp
    · rw [← Option.some.inj hp]
      exact fun g hg => family_of_prepare h.isOpen hembed hg
    · exact h.ready f p hp
  | handle file =>
    rcases step_handle_cases w file with hs | ⟨p, -, hp, hs⟩
    · rw [hs]
      exact h
    · rw [hs]
      refine ⟨?_, h.ready, fun f hf => ?_⟩
      · rw [TreeRun.store_add, isOpen_finish]
        exact h.isOpen
      · rcases ended_add hf with hf | ⟨hf, -⟩
        · exact h.ended f hf
        · exact family_of_finish h.isOpen (h.ready file p hp) hf

/-- A run with an open store, and an embedder that never says that a store cannot be used, goes
    through to its end. -/
theorem usable_after {w : Pool} (h : w.Usable)
    (hembed : ∀ text f, embed text = .error f → f.family ≠ .unavailable) (moves : List Move) :
    (w.after d embed project force moves).Usable := by
  induction moves generalizing w with
  | nil => exact h
  | cons move moves ih => exact ih (h.step hembed move)

theorem usable_start {s : Store} (ho : s.isOpen) (d : Disk) (rule : WalkRule) (path : String) :
    (start d s rule path).Usable where
  isOpen := ho
  ready := by
    intro file p hp
    cases hp
  ended := by
    intro f hf
    obtain ⟨x, -, hx⟩ := List.exists_of_findSome?_eq_some hf
    cases x with
    | file path => cases hx
    | unclear e => cases hx
    | unlisted e =>
      simp only [Finding.fault?, Option.ite_none_left_eq_some] at hx
      rw [← Option.some.inj hx.2]
      simp only [IndexFault.family, FileError.family]
      split <;> simp

/-- What is found below the place where a walk begins does not end the run. -/
theorem fault?_of_at {p : Path.Absolute} {x : Finding} (h : x.At p) : x.fault? = none := by
  cases h <;> rfl

/-- Where a walk itself ends the run, it has found no files. -/
theorem walkedFiles_of_fault (hd : d.Proper) {rule : WalkRule} {path : String} {f : IndexFault}
    (h : (d.walk rule path).findSome? Finding.fault? = some f) : d.walkedFiles rule path = [] := by
  obtain ⟨x, hx, hf⟩ := List.exists_of_findSome?_eq_some h
  unfold Disk.walkedFiles
  cases he : d.entry (d.absolute path).toString with
  | error fault =>
    rw [Disk.walk_of_fault he]
    rfl
  | ok e =>
    rw [Disk.walk_of_entry he] at hx
    obtain ⟨names, -, hat⟩ := Disk.at_of_mem_findings (hd.entry he) hx
    rw [fault?_of_at hat] at hf
    cases hf

/-! ## Whole runs -/

theorem run_after_of_ended {w : Pool} {f : IndexFault} (h : w.run.ended = some f) :
    (w.after d embed project force moves).run = w.run := by
  induction moves using List.reverseRecOn with
  | nil => rfl
  | append_singleton moves move ih =>
    rw [after_append, run_step_of_ended (by rw [ih, h]), ih]

/-- One worker, who hands over each file before taking the next, indexes them one by one. -/
theorem run_after_oneByOne {w : Pool} {files : List String} (h : w.run.ended = none) :
    (w.after d embed project force (Move.oneByOne files)).run =
      indexFiles d embed project force w.run files := by
  induction files generalizing w with
  | nil => rfl
  | cons file files ih =>
    have hready : (w.step d embed project force (.prepare file)).ready file =
        some (SourceAtlas.prepare d embed w.run.store project force (d.absolute file)) := by
      rw [ready_step_prepare, if_pos rfl]
    have hrun : ((w.step d embed project force (.prepare file)).step d embed project force
        (.handle file)).run =
          w.run.add (indexFile d embed w.run.store project force (d.absolute file)) := by
      rw [step_handle (w := w.step d embed project force (.prepare file)) h hready,
        ← finish_prepare]
      rfl
    rw [show w.after d embed project force (Move.oneByOne (file :: files)) =
      ((w.step d embed project force (.prepare file)).step d embed project force
        (.handle file)).after d embed project force (Move.oneByOne files) from rfl,
      indexFiles_cons, ← hrun]
    split
    · rename_i hended
      obtain ⟨f, hf⟩ := Option.isSome_iff_exists.mp hended
      exact run_after_of_ended hf
    · rename_i hended
      exact ih (by simpa using hended)

/-- Indexing a tree is a run with one worker. -/
theorem indexTree_eq_run (hd : d.Proper) (s : Store) (rule : WalkRule) (path : String) :
    indexTree d embed s project rule force path =
      ((start d s rule path).after d embed project force
        (Move.oneByOne (d.walkedFiles rule path))).run := by
  cases hf : (start d s rule path).run.ended with
  | none => rw [run_after_oneByOne hf]; rfl
  | some f =>
    rw [run_after_of_ended hf]
    have hnone := walkedFiles_of_fault hd hf
    unfold indexTree start
    dsimp only
    rw [hnone]
    rfl

/-- **Workers change nothing.** Over a disk that does not change, and with an embedder whose answer
    depends on the text alone, a run with workers whose store can be used comes to what indexing the
    files of the walk one after another comes to, in the order in which they were handled: each file
    has the same outcome, the store is the same, and so is all that the run reports. -/
theorem pool_sequential (hd : d.Proper) {s : Store} {rule : WalkRule} {path : String}
    {moves : List Move} (hmoves : IsSchedule (d.walkedFiles rule path) moves)
    (hended : ∀ f, ((start d s rule path).after d embed project force moves).run.ended = some f →
      f.family ≠ .unavailable) :
    (Move.order moves).Perm (d.walkedFiles rule path) ∧
      indexEach d embed project force s (Move.order moves) =
        (((start d s rule path).after d embed project force moves).handled,
          ((start d s rule path).after d embed project force moves).run.store) ∧
      ((start d s rule path).after d embed project force moves).run =
        indexFiles d embed project force (start d s rule path).run (Move.order moves) := by
  have hnone : Move.order moves ≠ [] →
      ((start d s rule path).after d embed project force moves).run.ended = none := by
    intro hne
    cases hf : ((start d s rule path).after d embed project force moves).run.ended with
    | none => rfl
    | some f =>
      have hbegun := (ended_after hf).resolve_right (hended f hf)
      have hempty := walkedFiles_of_fault hd hbegun
      rw [hempty] at hmoves
      exact absurd (List.perm_nil.mp hmoves.complete) hne
  have hindexed := indexed_after (indexed_start d embed project force s rule path)
    (fun f hf g hg => Disk.documentKey_walkedFiles hd project hf hg)
    (follows_of_isSchedule hmoves (Disk.nodup_walkedFiles hd rule path)) hnone
  exact ⟨hmoves.complete, hindexed.handled, hindexed.run⟩

/-- A disk with two files. -/
def sampleDisk : Disk where
  root := .directory true true [("a.js", .file []), ("b.js", .file [])]
  here := ⟨false, []⟩

theorem proper_sampleDisk : sampleDisk.Proper where
  root := by
    refine .directory (by decide) ?_ ?_
    · intro e he
      simp only [List.mem_cons, List.not_mem_nil, or_false] at he
      rcases he with rfl | rfl <;> constructor <;> decide
    · intro e he
      simp only [List.mem_cons, List.not_mem_nil, or_false] at he
      rcases he with rfl | rfl <;> exact .file _
  here := by
    intro c hc
    cases hc

theorem walkedFiles_sampleDisk :
    sampleDisk.walkedFiles ⟨[".js"], []⟩ "/" = ["/a.js", "/b.js"] := by
  have hplace : (sampleDisk.absolute "/").toString = "/" := by rfl
  have hsorted : sortByName [("a.js", Entry.file []), ("b.js", Entry.file [])] =
      [("a.js", Entry.file []), ("b.js", Entry.file [])] :=
    List.mergeSort_of_pairwise (by simp)
  have hlisted : Disk.unlistable? (sampleDisk.absolute "/") sampleDisk.root = none := by rfl
  unfold Disk.walkedFiles
  rw [Disk.walk_of_entry (by rw [hplace]; exact Disk.entry_slash rfl),
    Disk.findings_of_listable hlisted]
  dsimp only [sampleDisk, Entry.entries]
  rw [hsorted]
  rfl

/-- The second file is written first, and both are prepared before that. -/
def sampleMoves : List Move :=
  [.prepare "/a.js", .prepare "/b.js", .handle "/b.js", .handle "/a.js"]

theorem isSchedule_sampleMoves :
    IsSchedule (sampleDisk.walkedFiles ⟨[".js"], []⟩ "/") sampleMoves where
  complete := by
    rw [walkedFiles_sampleDisk]
    exact List.Perm.swap _ _ _
  prepared := by
    intro before file after h
    simp only [sampleMoves, List.cons_eq_append_iff, List.cons.injEq, Move.handle.injEq,
      reduceCtorEq, false_and, and_false, false_or, exists_false, or_false, List.nil_eq,
      List.append_eq_nil_iff] at h
    obtain ⟨rest, rfl, others, rfl, ⟨rfl, rfl, rfl⟩ | ⟨_, rfl, rfl, rfl, rfl⟩⟩ := h <;> simp

/-- An embedder that answers every text with the same vector. -/
def sampleEmbedder : Embedder := fun _ => .ok (.many [.one (.float 1)])

theorem pool_sequential_sampleMoves :
    indexEach sampleDisk sampleEmbedder ⟨false, []⟩ false (.fresh ":memory:") ["/b.js", "/a.js"] =
      (((start sampleDisk (.fresh ":memory:") ⟨[".js"], []⟩ "/").after sampleDisk sampleEmbedder
          ⟨false, []⟩ false sampleMoves).handled,
        ((start sampleDisk (.fresh ":memory:") ⟨[".js"], []⟩ "/").after sampleDisk sampleEmbedder
          ⟨false, []⟩ false sampleMoves).run.store) := by
  have husable : ((start sampleDisk (.fresh ":memory:") ⟨[".js"], []⟩ "/").after sampleDisk
      sampleEmbedder ⟨false, []⟩ false sampleMoves).Usable := by
    refine usable_after (usable_start rfl sampleDisk _ "/") ?_ sampleMoves
    intro text f h
    cases h
  exact (pool_sequential proper_sampleDisk isSchedule_sampleMoves husable.ended).2.1

end Pool

end SourceAtlas
