import SourceAtlas.Proofs.Session.Incremental
import SourceAtlas.Proofs.Session.Ledger
import SourceAtlas.Proofs.Store.Dimension

/-!
# Runs in any order

Whether a document can be written may depend on what else is stored, through the length of the
vectors. With an embedder whose vectors have one length, and a store that is empty or has vectors of
that length, it does not, and the order in which the files of a run are handled makes no difference.

Results:
* `indexEach_of_blocked`: what comes of files while nothing can be written.
* `Session.confluent_indexes`: two runs from one state come to the same.
-/

namespace SourceAtlas

variable {d : Disk} {embed : Embedder} {project : Path.Absolute} {force : Bool}

/-! ## Stores that nothing is written to -/

section Blocked

variable {s : Store}

/-- A store that is closed, or in which a transaction is under way, is left as it is. -/
theorem store_indexFile_of_blocked (h : ¬ (s.isOpen ∧ s.saved = none)) (path : Path.Absolute) :
    (indexFile d embed s project force path).store = s := by
  rw [← finish_prepare]
  rcases finish_cases (prepare d embed s project force path) s with
    ⟨f, -, -, hs⟩ | ⟨-, -, hs⟩ | ⟨draft, -, -, hs⟩
  · exact hs
  · exact hs
  · rw [hs]
    cases hu : (s.upsert draft).1 with
    | error e => exact Store.upsert_error hu
    | ok u =>
      have hok : s.upsert draft = (.ok (), (s.upsert draft).2) := Prod.ext hu rfl
      obtain ⟨ho, hsaved, -⟩ := Store.upsert_ok_iff.mp hok
      exact absurd ⟨ho, hsaved⟩ h

/-- What comes of each file is then what would come of it alone. -/
theorem indexEach_of_blocked (h : ¬ (s.isOpen ∧ s.saved = none)) (files : List String) :
    indexEach d embed project force s files =
      (files.map fun file =>
        (file, (indexFile d embed s project force (d.absolute file)).result), s) := by
  induction files with
  | nil => rfl
  | cons file files ih =>
    rw [indexEach]
    dsimp only
    rw [store_indexFile_of_blocked h, ih, List.map_cons]

end Blocked

/-! ## Stores with vectors of one length -/

/-- Where the first vector of well-formed tables has a length, all have. -/
theorem Tables.uniform_catalogue {t : Tables} (h : t.WellFormed) {n : Nat}
    (hn : ∀ k, t.dimensions = some k → k = n) : t.catalogue.Uniform n := by
  intro p doc hdoc
  obtain ⟨row, hrow, rfl⟩ := Option.map_eq_some_iff.mp hdoc
  have hmem := List.mem_of_find?_eq_some hrow
  rw [(h.sound row hmem).length]
  exact hn _ (Tables.dimensions_of_mem h hmem)

namespace Pool

section Orders

variable {rule : WalkRule} {path : String} {s : Store} {moves : List Move}

/-- What a run at one moment has counted that has not ended. -/
theorem counted_after (hd : d.Proper) (hmoves : IsSchedule (d.walkedFiles rule path) moves)
    (hended : ((start d s rule path).after d embed project force moves).run.ended = none) :
    Counted (d.key project) (d.walkedFiles rule path) moves
      ((start d s rule path).after d embed project force moves) := by
  have hturns : (moves.map (Turn.mk ⟨d, embed⟩)).map Turn.move = moves := by
    rw [List.map_map]
    exact List.map_id moves
  have hfollows : Follows (d.walkedFiles rule path)
      ((moves.map (Turn.mk ⟨d, embed⟩)).map Turn.move) := by
    rw [hturns]
    exact follows_of_isSchedule hmoves (Disk.nodup_walkedFiles hd rule path)
  rw [after_eq_through] at hended ⊢
  have hcounted := counted_through hd hfollows hended
  rwa [hturns] at hcounted

end Orders

end Pool

/-! ## Sessions -/

namespace Session

variable {s : Session} {path : String}

/-- What two runs come to that make no difference: the stores answer alike, and the same is
    reported. -/
structure Agree (run run' : TreeRun) : Prop where
  store : run.store.Alike run'.store
  failures : run.tally.sortedFailures = run'.tally.sortedFailures
  processed : run.tally.processed = run'.tally.processed
  skipped : run.tally.skipped = run'.tally.skipped
  failed : run.tally.failed = run'.tally.failed

theorem Agree.refl (run : TreeRun) : Agree run run := ⟨.refl _, rfl, rfl, rfl, rfl⟩

/-- The runs of two schedules, with a store that nothing can be written to. -/
theorem agree_of_blocked (hd : d.Proper) (h : ¬ (s.store.isOpen ∧ s.store.saved = none))
    {moves moves' : List Move} (hmoves : IsSchedule (d.walkedFiles s.walkRule path) moves)
    (hmoves' : IsSchedule (d.walkedFiles s.walkRule path) moves')
    (hended : ((Pool.start d s.store s.walkRule path).after d embed s.project force
      moves).run.ended = none)
    (hended' : ((Pool.start d s.store s.walkRule path).after d embed s.project force
      moves').run.ended = none) :
    Agree ((Pool.start d s.store s.walkRule path).after d embed s.project force moves).run
      ((Pool.start d s.store s.walkRule path).after d embed s.project force moves').run := by
  have hindexed := (Pool.indexed_of_schedule hd hmoves hended).handled
  have hindexed' := (Pool.indexed_of_schedule hd hmoves' hended').handled
  rw [show (Pool.start d s.store s.walkRule path).run.store = s.store from rfl,
    indexEach_of_blocked h, Prod.mk.injEq] at hindexed hindexed'
  have htally := (Pool.counted_after hd hmoves hended).tally
  have htally' := (Pool.counted_after hd hmoves' hended').tally
  rw [← hindexed.1] at htally
  rw [← hindexed'.1] at htally'
  have hkeys : (((Move.order moves).map fun file => (file, (SourceAtlas.indexFile d embed s.store
      s.project force (d.absolute file)).result)).map fun x => d.key s.project x.1).Nodup := by
    rw [List.map_map]
    exact (hmoves.complete.map _).nodup_iff.mpr (nodup_keys hd s.project s.walkRule path)
  obtain ⟨hfailures, hprocessed, hskipped⟩ := Tally.ofHandled_perm
    ((hmoves.complete.trans hmoves'.complete.symm).map _) hkeys
  rw [← htally, ← htally'] at hfailures hprocessed hskipped
  refine ⟨?_, hfailures, hprocessed, hskipped, ?_⟩
  · rw [← hindexed.2, ← hindexed'.2]
    exact .refl _
  · rw [← Tally.length_sortedFailures, hfailures, Tally.length_sortedFailures]

/-- The runs of two schedules, with a store that carries a catalogue of vectors of one length. -/
theorem agree_of_carries (hd : d.Proper) {m : Catalogue} {n : Nat} (h : s.store.Carries m)
    (hm : m.Uniform n) (hn : embed.Uniform n) {moves moves' : List Move}
    (hmoves : IsSchedule (d.walkedFiles s.walkRule path) moves)
    (hmoves' : IsSchedule (d.walkedFiles s.walkRule path) moves')
    (hended : ((Pool.start d s.store s.walkRule path).after d embed s.project force
      moves).run.ended = none)
    (hended' : ((Pool.start d s.store s.walkRule path).after d embed s.project force
      moves').run.ended = none) :
    Agree ((Pool.start d s.store s.walkRule path).after d embed s.project force moves).run
      ((Pool.start d s.store s.walkRule path).after d embed s.project force moves').run := by
  have hsettled := Pool.settled_after hd h hm hn hmoves hended
  have hsettled' := Pool.settled_after hd h hm hn hmoves' hended'
  have hperm := hmoves.complete.trans hmoves'.complete.symm
  have hkeys : ((Move.order moves).map (d.key s.project)).Nodup :=
    (hmoves.complete.map _).nodup_iff.mpr (nodup_keys hd s.project s.walkRule path)
  have hfailures := hsettled.sortedFailures_eq hsettled' hperm hkeys (fun _ _ => rfl) rfl
  refine ⟨hsettled.alike hsettled' ?_, hfailures, ?_, ?_, ?_⟩
  · exact settleAll_congr hperm hkeys (fun _ _ hv => path_of_verdict hv)
      (fun _ _ hv => path_of_verdict hv) fun _ _ => rfl
  · rw [hsettled.processed, hsettled'.processed, hperm.countP_eq]
  · rw [hsettled.skipped, hsettled'.skipped, hperm.countP_eq]
  · rw [← Tally.length_sortedFailures, hfailures, Tally.length_sortedFailures]

/-- **The order makes no difference.** Over files that do not change, with an embedder whose answer
    depends on the text alone and whose vectors have one length, and with well-formed tables which
    are empty or have vectors of that length: any two runs over a tree, with any workers, and
    neither ended by a store that cannot be used, leave stores that answer alike, and report the
    same. -/
theorem agree_of_indexes (hd : d.Proper) {n : Nat} (hn : embed.Uniform n)
    (hw : s.store.tables.WellFormed) (hdimensions : ∀ k, s.store.tables.dimensions = some k → k = n)
    {run run' : TreeRun} (h : s.Indexes d embed path force run)
    (h' : s.Indexes d embed path force run')
    (hended : ∀ f, run.ended = some f → f.family ≠ .unavailable)
    (hended' : ∀ f, run'.ended = some f → f.family ≠ .unavailable) : Agree run run' := by
  obtain ⟨moves, hmoves, rfl⟩ := h.exists_schedule hd
  obtain ⟨moves', hmoves', rfl⟩ := h'.exists_schedule hd
  cases hstart : (Pool.start d s.store s.walkRule path).run.ended with
  | some f =>
    -- The walk itself ends both runs before a file is handled.
    rw [Pool.run_after_of_ended hstart, Pool.run_after_of_ended hstart]
    exact .refl _
  | none =>
    have hnone := Pool.ended_eq_none hstart hended
    have hnone' := Pool.ended_eq_none hstart hended'
    by_cases hopen : s.store.isOpen ∧ s.store.saved = none
    · exact agree_of_carries hd (Store.carries_catalogue hopen.1 hopen.2 hw)
        (Tables.uniform_catalogue hw hdimensions) hn hmoves hmoves' hnone hnone'
    · exact agree_of_blocked hd hopen hmoves hmoves' hnone hnone'

/-- A session with an empty store. -/
def sampleEmpty : Session :=
  ⟨{ (default : Settings) with extensions := [".js"] }, .fresh ":memory:", ⟨false, []⟩⟩

theorem walkRule_sampleEmpty : sampleEmpty.walkRule = ⟨[".js"], []⟩ := by
  rfl

theorem agree_of_indexes_sampleEmpty :
    Agree (sampleEmpty.indexTree Pool.sampleDisk Pool.sampleEmbedder "/" false)
      ((Pool.start Pool.sampleDisk sampleEmpty.store sampleEmpty.walkRule "/").after Pool.sampleDisk
        Pool.sampleEmbedder sampleEmpty.project false Pool.sampleMoves).run := by
  have husable (moves : List Move) :
      ((Pool.start Pool.sampleDisk sampleEmpty.store sampleEmpty.walkRule "/").after
        Pool.sampleDisk Pool.sampleEmbedder sampleEmpty.project false moves).Usable := by
    refine Pool.usable_after (Pool.usable_start rfl _ _ _) ?_ moves
    intro text f h
    cases h
  refine agree_of_indexes Pool.proper_sampleDisk uniform_sampleEmbedder Tables.wellFormed_empty ?_
    .alone (.together Pool.sampleMoves ?_) ?_ (husable _).ended
  · intro k hk
    cases hk
  · rw [walkRule_sampleEmpty]
    exact Pool.isSchedule_sampleMoves
  · have hrun : sampleEmpty.indexTree Pool.sampleDisk Pool.sampleEmbedder "/" false = _ :=
      Pool.indexTree_eq_run Pool.proper_sampleDisk _ _ _
    rw [hrun]
    exact (husable _).ended

end Session

end SourceAtlas
