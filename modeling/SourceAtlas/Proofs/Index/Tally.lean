import Mathlib.Data.List.Nodup
import SourceAtlas.Proofs.Index.Pool

/-!
# What a run tells of its files

A file that is handled falls into one of three classes, and the tally of a run that goes on is that
of the files handled so far: it can be read off what came of each of them.

Results:
* `add_of_goes_on`: what one file more adds to a tally, unless it ends the run.
* `Counted.step`: a move keeps the tally that of the files handled so far.
* `total_ofHandled`, `pairwise_sortedFailures`, `done_progress`: what can be read off such a tally.
* `sortedFailures_eq`: what is reported of failures does not depend on their order.
-/

namespace SourceAtlas

/-! ## Classes -/

/-- The classes of the files that are counted. -/
inductive FileClass where
  | processed
  | skipped
  | failed
  deriving DecidableEq, Repr

/-- The class of a file by what came of it. -/
def FileClass.of : Except IndexFault Bool → FileClass
  | .ok true => processed
  | .ok false => skipped
  | .error _ => failed

/-- What is reported of a file that failed, unless its fault ends the run. -/
def failureOf (key : String) : Except IndexFault Bool → Option FileFailure
  | .ok _ => none
  | .error f => (FailureKind.ofFamily? f.family).map fun kind => ⟨key, f.message, kind⟩

theorem path_of_failureOf {key : String} {r : Except IndexFault Bool} {x : FileFailure}
    (h : failureOf key r = some x) : x.path = key := by
  cases r with
  | ok b => cases h
  | error f =>
    obtain ⟨kind, -, rfl⟩ := Option.map_eq_some_iff.mp h
    rfl

/-! ## Tallies -/

namespace Tally

variable {key : String → String} {handled : List (String × Except IndexFault Bool)}

/-- A tally with a file more that does not end the run. -/
def plus (t : Tally) (key : String) (r : Except IndexFault Bool) : Tally where
  processed := t.processed + if FileClass.of r = .processed then 1 else 0
  skipped := t.skipped + if FileClass.of r = .skipped then 1 else 0
  failures := (failureOf key r).toList ++ t.failures
  handled := key :: t.handled

/-- The tally of files by what came of each of them. -/
def ofHandled (key : String → String) (handled : List (String × Except IndexFault Bool)) :
    Tally where
  processed := handled.countP fun x => FileClass.of x.2 = .processed
  skipped := handled.countP fun x => FileClass.of x.2 = .skipped
  failures := (handled.filterMap fun x => failureOf (key x.1) x.2).reverse
  handled := (handled.map fun x => key x.1).reverse

theorem ofHandled_append (key : String → String)
    (handled : List (String × Except IndexFault Bool)) (x : String × Except IndexFault Bool) :
    ofHandled key (handled ++ [x]) = (ofHandled key handled).plus (key x.1) x.2 := by
  unfold ofHandled Tally.plus
  rw [List.countP_append, List.countP_append, List.filterMap_append, List.map_append]
  cases hx : failureOf (key x.1) x.2 <;> simp [List.countP_cons, hx]

/-- A file more, unless it ends the run. -/
theorem add_of_goes_on {run : TreeRun} {r : FileRun} (h : (run.add r).ended = none) :
    (run.add r).tally = run.tally.plus r.key r.result ∧
      ∀ f, r.result = .error f → f.family ≠ .unavailable := by
  unfold TreeRun.add Tally.count at h ⊢
  cases hr : r.result with
  | ok written => cases written <;> exact ⟨rfl, fun f hf => by cases hf⟩
  | error f =>
    rw [hr] at h
    dsimp only at h ⊢
    cases hk : FailureKind.ofFamily? f.family with
    | none => rw [hk] at h; cases h
    | some kind =>
      constructor
      · simp [Tally.plus, FileClass.of, failureOf, hk]
      · rintro g hg hfamily
        cases hg
        rw [Pool.ofFamily?_eq_none_iff.mpr hfamily] at hk
        cases hk

/-! ## What can be read off a tally -/

/-- The failures are those of the files that failed, each under the file's key. -/
theorem paths_filterMap (key : String → String)
    (h : ∀ x ∈ handled, ∀ f, x.2 = .error f → f.family ≠ .unavailable) :
    (handled.filterMap fun x => failureOf (key x.1) x.2).map FileFailure.path =
      (handled.filter fun x => FileClass.of x.2 = .failed).map fun x => key x.1 := by
  induction handled with
  | nil => rfl
  | cons x handled ih =>
    obtain ⟨file, r⟩ := x
    rw [List.forall_mem_cons] at h
    have ih := ih h.2
    cases r with
    | ok written =>
      have hnone : failureOf (key file) (.ok written) = none := rfl
      have hclass : FileClass.of (.ok written) ≠ .failed := by cases written <;> simp [FileClass.of]
      simp only [List.filterMap_cons, hnone, List.filter_cons, hclass, decide_false,
        Bool.false_eq_true, if_false]
      exact ih
    | error f =>
      cases hk : FailureKind.ofFamily? f.family with
      | none => exact absurd (Pool.ofFamily?_eq_none_iff.mp hk) (h.1 f rfl)
      | some kind =>
        have hsome : failureOf (key file) (.error f) = some ⟨key file, f.message, kind⟩ := by
          simp [failureOf, hk]
        have hclass : FileClass.of (.error f) = .failed := rfl
        simp only [List.filterMap_cons, hsome, List.filter_cons, hclass, decide_true, if_true,
          List.map_cons, ih]

theorem failed_ofHandled (key : String → String)
    (h : ∀ x ∈ handled, ∀ f, x.2 = .error f → f.family ≠ .unavailable) :
    (ofHandled key handled).failed = handled.countP fun x => FileClass.of x.2 = .failed := by
  have hpaths := congrArg List.length (paths_filterMap key h)
  rw [List.length_map, List.length_map, ← List.countP_eq_length_filter] at hpaths
  exact (List.length_reverse).trans hpaths

/-- Every file is counted once. -/
theorem total_ofHandled (h : ∀ x ∈ handled, ∀ f, x.2 = .error f → f.family ≠ .unavailable) :
    (ofHandled key handled).total = handled.length := by
  have hclasses : ∀ l : List (String × Except IndexFault Bool),
      (l.countP fun x => FileClass.of x.2 = .processed) +
        (l.countP fun x => FileClass.of x.2 = .skipped) +
        (l.countP fun x => FileClass.of x.2 = .failed) = l.length := by
    intro l
    induction l with
    | nil => rfl
    | cons x l ih =>
      simp only [List.countP_cons, List.length_cons, ← ih]
      cases FileClass.of x.2 <;> simp <;> omega
  unfold total
  rw [failed_ofHandled key h]
  exact hclasses handled

theorem perm_sortedFailures (t : Tally) : t.sortedFailures.Perm t.failures :=
  (List.mergeSort_perm _ _).trans (List.reverse_perm _)

/-- What is reported are the failures of the files that failed. -/
theorem perm_ofHandled (key : String → String)
    (handled : List (String × Except IndexFault Bool)) :
    (ofHandled key handled).sortedFailures.Perm
      (handled.filterMap fun x => failureOf (key x.1) x.2) :=
  (perm_sortedFailures _).trans (List.reverse_perm _)

/-- Failures are reported in the order of their paths. -/
theorem pairwise_sortedFailures (t : Tally) :
    t.sortedFailures.Pairwise fun a b => a.path ≤ b.path :=
  pairwise_mergeSort_text FileFailure.path _

/-- Failures of things with different keys, each under the key of its own, have different paths. -/
theorem nodup_paths {α : Type} {f : α → Option FileFailure} {key : α → String}
    (hf : ∀ a x, f a = some x → x.path = key a) {l : List α} (h : (l.map key).Nodup) :
    ((l.filterMap f).map FileFailure.path).Nodup := by
  rw [List.Nodup, List.pairwise_map, List.pairwise_filterMap]
  refine (List.pairwise_map.mp h).imp fun hne x hx y hy => ?_
  rwa [hf _ _ hx, hf _ _ hy]

theorem length_sortedFailures (t : Tally) : t.sortedFailures.length = t.failed :=
  t.perm_sortedFailures.length_eq

/-- Failures in the order of their paths do not depend on the order in which they happened. -/
theorem sortedFailures_eq {t t' : Tally} (h : t.failures.Perm t'.failures)
    (hpaths : (t.failures.map FileFailure.path).Nodup) : t.sortedFailures = t'.sortedFailures := by
  refine List.Perm.eq_of_pairwise ?_ t.pairwise_sortedFailures t'.pairwise_sortedFailures
    (t.perm_sortedFailures.trans (h.trans t'.perm_sortedFailures.symm))
  intro a b ha hb hab hba
  rw [t.perm_sortedFailures.mem_iff] at ha
  rw [t'.perm_sortedFailures.mem_iff] at hb
  exact List.inj_on_of_nodup_map hpaths ha (h.mem_iff.mpr hb) (String.le_antisymm hab hba)

/-- A tally does not depend on the order of the files, except for the order of what happened. -/
theorem ofHandled_perm {handled' : List (String × Except IndexFault Bool)}
    (h : handled.Perm handled') (hkeys : (handled.map fun x => key x.1).Nodup) :
    (ofHandled key handled).sortedFailures = (ofHandled key handled').sortedFailures ∧
      (ofHandled key handled).processed = (ofHandled key handled').processed ∧
      (ofHandled key handled).skipped = (ofHandled key handled').skipped := by
  refine ⟨sortedFailures_eq ?_ ?_, h.countP_eq _, h.countP_eq _⟩
  · exact (List.reverse_perm _).trans ((h.filterMap _).trans (List.reverse_perm _).symm)
  · refine ((List.reverse_perm _).map _).nodup_iff.mpr ?_
    exact nodup_paths (fun _ _ hx => path_of_failureOf hx) hkeys

end Tally

/-! ## Progress -/

namespace TreeRun

@[simp] theorem files_add (run : TreeRun) (r : FileRun) : (run.add r).files = run.files := by
  unfold add
  dsimp only
  split <;> rfl

variable {key : String → String} {handled : List (String × Except IndexFault Bool)}
variable {run : TreeRun}

/-- What is told after each file counts the files, and names them in their order. -/
theorem progress_ofHandled (h : run.tally = .ofHandled key handled) :
    run.progress.map Progress.done = List.range' 1 handled.length ∧
      run.progress.map Progress.key = handled.map (fun x => key x.1) ∧
      ∀ x ∈ run.progress, x.total = run.files.length := by
  have hkeys : run.tally.handled.reverse = handled.map fun x => key x.1 := by
    rw [h]
    exact List.reverse_reverse _
  unfold progress
  rw [hkeys, List.map_map, List.map_map]
  refine ⟨?_, ?_, fun x hx => ?_⟩
  · have hplaces := List.zipIdx_map_snd 0 (handled.map fun x => key x.1)
    rw [List.length_map] at hplaces
    have hnext := congrArg (List.map fun i => 1 + i) hplaces
    rw [List.map_add_range', List.map_map] at hnext
    rw [← hnext]
    exact List.map_congr_left fun x _ => Nat.add_comm _ _
  · exact List.zipIdx_map_fst 0 _
  · obtain ⟨y, -, rfl⟩ := List.mem_map.mp hx
    rfl

end TreeRun

/-! ## Moves -/

namespace Pool

variable {d : Disk} {embed : Embedder} {project : Path.Absolute} {force : Bool}
variable {key : String → String} {files : List String} {moves : List Move} {w : Pool}
variable {file : String}

@[simp] theorem files_step (w : Pool) (move : Move) :
    (w.step d embed project force move).run.files = w.run.files := by
  cases move with
  | prepare file => rfl
  | handle file =>
    rcases step_handle_cases w file with hs | ⟨p, -, -, hs⟩
    · rw [hs]
    · rw [hs]
      exact TreeRun.files_add _ _

/-- What holds of a run over files that goes on after moves: the files that were to be handled
    were, in their order, none of them ended the run, and the tally is theirs. -/
structure Counted (key : String → String) (files : List String) (moves : List Move) (w : Pool) :
    Prop where
  ready : ∀ file ∈ files, .prepare file ∈ moves → ∃ p, w.ready file = some p ∧ p.key = key file
  order : w.handled.map Prod.fst = Move.order moves
  returned : ∀ x ∈ w.handled, ∀ f, x.2 = .error f → f.family ≠ .unavailable
  tally : w.run.tally = .ofHandled key w.handled

theorem counted_start (key : String → String) (files : List String) (d : Disk) (s : Store)
    (rule : WalkRule) (path : String) : Counted key files [] (start d s rule path) where
  ready := by simp
  order := rfl
  returned := by
    intro x hx
    cases hx
  tally := rfl

/-- A file is prepared. -/
theorem Counted.prepare (h : Counted key files moves w)
    (hkey : file ∈ files → Path.documentKey project (d.absolute file) = key file) :
    Counted key files (moves ++ [.prepare file]) (w.step d embed project force (.prepare file))
    where
  ready := by
    intro f hf hmem
    rw [ready_step_prepare]
    split
    · rename_i heq
      subst heq
      exact ⟨_, rfl, (key_prepare _ _ _ _ _ _).trans (hkey hf)⟩
    · rename_i hne
      exact h.ready f hf (by simpa [hne] using hmem)
  order := by
    rw [Move.order_append_prepare]
    exact h.order
  returned := h.returned
  tally := h.tally

/-- A file is handled, and does not end the run. -/
theorem Counted.handle (h : Counted key files moves w) (hfile : file ∈ files)
    (hready : .prepare file ∈ moves)
    (hended : (w.step d embed project force (.handle file)).run.ended = none) :
    Counted key files (moves ++ [.handle file])
      (w.step d embed project force (.handle file)) := by
  obtain ⟨p, hp, hpkey⟩ := h.ready file hfile hready
  have hstep : w.step d embed project force (.handle file) = _ := step_handle (ended_step hended) hp
  rw [hstep] at hended ⊢
  obtain ⟨htally, hfamily⟩ := Tally.add_of_goes_on hended
  constructor
  case ready =>
    intro f hf hmem
    exact h.ready f hf (by simpa using hmem)
  case order =>
    rw [Move.order_append_handle, List.map_append, h.order]
    rfl
  case returned =>
    intro x hx
    rcases List.mem_append.mp hx with hx | hx
    · exact h.returned x hx
    · rw [List.mem_singleton.mp hx]
      exact hfamily
  case tally =>
    dsimp only
    rw [htally, h.tally, Tally.ofHandled_append, ← hpkey]
    rfl

end Pool

end SourceAtlas
