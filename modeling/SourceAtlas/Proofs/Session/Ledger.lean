import SourceAtlas.Proofs.Index.Effect
import SourceAtlas.Session.History

/-!
# What a run does file by file

Each turn of a run has a moment of its own: files change and embedders fail while workers are under
way, and a run may be cut short. Still each file that is handled has had one effect, under its own
key, and its class tells which.

Results:
* `ledger_through`: what is true of every file, and of every key, after any turns.
* `Ledger.old_or_new`: no key is left with anything in between.
* `counted_through`: what a run that has not ended has counted.
-/

namespace SourceAtlas

namespace Pool

/-! ## Turns -/

section Turns

variable {project : Path.Absolute} {force : Bool}

theorem through_append (w : Pool) (turns : List Turn) (t : Turn) :
    w.through project force (turns ++ [t]) =
      (w.through project force turns).step t.now.disk t.now.embed project force t.move := by
  unfold through
  rw [List.foldl_append]
  rfl

theorem files_through (w : Pool) (turns : List Turn) :
    (w.through project force turns).run.files = w.run.files := by
  induction turns generalizing w with
  | nil => rfl
  | cons t turns ih => exact (ih _).trans (files_step w t.move)

theorem ended_of_through {w : Pool} {turns : List Turn} {f : IndexFault}
    (h : (w.through project force turns).run.ended = some f) :
    w.run.ended = some f ∨ f.family = .unavailable := by
  induction turns generalizing w with
  | nil => exact Or.inl h
  | cons t turns ih => exact (ih h).elim ended_of_step Or.inr

/-- A run that has begun goes through to its end unless a store cannot be used. -/
theorem ended_through {w : Pool} {turns : List Turn} (h : w.run.ended = none)
    (hended : ∀ f, (w.through project force turns).run.ended = some f → f.family ≠ .unavailable) :
    (w.through project force turns).run.ended = none := by
  cases hf : (w.through project force turns).run.ended with
  | none => rfl
  | some f =>
    rcases ended_of_through hf with hbegun | hunavailable
    · rw [h] at hbegun
      cases hbegun
    · exact absurd hunavailable (hended f hf)

/-- A run all of whose turns are at one moment. -/
theorem after_eq_through (d : Disk) (embed : Embedder) (w : Pool) (moves : List Move) :
    w.after d embed project force moves =
      w.through project force (moves.map (Turn.mk ⟨d, embed⟩)) := by
  unfold through
  rw [List.foldl_map]
  rfl

theorem calls_append (w : Pool) (turns : List Turn) (t : Turn) :
    w.calls project force (turns ++ [t]) =
      w.calls project force turns ++
        t.asked project force (w.through project force turns).run.store := by
  induction turns generalizing w with
  | nil => exact List.append_nil _
  | cons u turns ih =>
    rw [List.cons_append, calls, calls, ih, List.append_assoc]
    rfl

end Turns

/-! ## Keys -/

/-- What holds of a run over files after turns: what is ready was prepared in one of them, as a
    store knew its key before the run; nothing has been done under other keys than those of the
    files that were handled, and under those what their classes tell. -/
structure Ledger (d : Disk) (project : Path.Absolute) (force : Bool) (files : List String)
    (first : Store) (turns : List Turn) (calls : List (String × String)) (w : Pool) : Prop where
  handled : ∀ x ∈ w.handled, x.1 ∈ Move.order (turns.map Turn.move)
  ready : ∀ file ∈ files, file ∉ Move.order (turns.map Turn.move) → ∀ p, w.ready file = some p →
    ∃ t ∈ turns, t.move = .prepare file ∧ (∀ text ∈ p.asked, (file, text) ∈ calls) ∧
      ∃ s : Store, s.hash (d.key project file) = first.hash (d.key project file) ∧
        p = prepare t.now.disk t.now.embed s project force (d.absolute file)
  frame : ∀ q, (∀ x ∈ w.handled, d.key project x.1 ≠ q) → first.SameAt w.run.store q
  effect : ∀ x ∈ w.handled, ∃ t ∈ turns, t.move = .prepare x.1 ∧
    ∃ asked, (∀ text ∈ asked, (x.1, text) ∈ calls) ∧
      FileEffect t.now.disk t.now.embed project force (d.absolute x.1) first w.run.store asked x.2
  still : (∀ x ∈ w.handled, x.2 ≠ .ok true) → w.run.store = first

section Steps

variable {d : Disk} {project : Path.Absolute} {force : Bool} {files : List String} {first : Store}
variable {turns : List Turn} {calls : List (String × String)} {w : Pool} {t : Turn} {file : String}

theorem ledger_start (d : Disk) (project : Path.Absolute) (force : Bool) (files : List String)
    (first : Store) (d' : Disk) (rule : WalkRule) (path : String) :
    Ledger d project force files first [] [] (start d' first rule path) where
  handled := by
    intro x hx
    cases hx
  ready := by
    intro file _ _ p hp
    cases hp
  frame := fun q _ => .refl first q
  effect := by
    intro x hx
    cases hx
  still := fun _ => rfl

/-- Turns and calls more do not make it untrue. -/
theorem Ledger.later (h : Ledger d project force files first turns calls w) (t : Turn)
    (more : List (String × String)) :
    Ledger d project force files first (turns ++ [t]) (calls ++ more) w := by
  have horder : ∀ f ∈ Move.order (turns.map Turn.move),
      f ∈ Move.order ((turns ++ [t]).map Turn.move) := by
    intro f hf
    rw [List.map_append, Move.order_append]
    exact List.mem_append_left _ hf
  constructor
  case handled => exact fun x hx => horder _ (h.handled x hx)
  case ready =>
    intro f hf hnew p hp
    obtain ⟨u, hu, hprepare, hasked, hrest⟩ :=
      h.ready f hf (fun hmem => hnew (horder f hmem)) p hp
    exact ⟨u, List.mem_append_left _ hu, hprepare,
      fun text htext => List.mem_append_left _ (hasked text htext), hrest⟩
  case frame => exact h.frame
  case effect =>
    intro x hx
    obtain ⟨u, hu, hprepare, asked, hasked, heffect⟩ := h.effect x hx
    exact ⟨u, List.mem_append_left _ hu, hprepare, asked,
      fun text htext => List.mem_append_left _ (hasked text htext), heffect⟩
  case still => exact h.still

/-- A file is prepared. -/
theorem Ledger.prepare (h : Ledger d project force files first turns calls w)
    (hmove : t.move = .prepare file)
    (habsolute : ∀ f ∈ files, t.now.disk.absolute f = d.absolute f)
    (hkeys : ∀ f ∈ files, ∀ g ∈ files, d.key project f = d.key project g → f = g)
    (hfiles : ∀ f ∈ Move.order (turns.map Turn.move), f ∈ files) :
    Ledger d project force files first (turns ++ [t]) (calls ++ t.asked project force w.run.store)
      (w.step t.now.disk t.now.embed project force (.prepare file)) := by
  have hlater := h.later t (t.asked project force w.run.store)
  refine ⟨hlater.handled, fun f hf hnew p hp => ?_, h.frame, hlater.effect, h.still⟩
  rw [ready_step_prepare] at hp
  split at hp
  · rename_i heq
    subst heq
    have hp := Option.some.inj hp
    refine ⟨t, by simp, hmove, fun text htext => ?_, w.run.store, ?_, ?_⟩
    · have hasked : (f, text) ∈ t.asked project force w.run.store := by
        unfold Turn.asked
        rw [hmove, List.mem_map]
        exact ⟨text, hp ▸ htext, rfl⟩
      exact List.mem_append_right _ hasked
    · -- The files that were handled have other keys, so that nothing is done under this one yet.
      refine (h.frame _ fun x hx heq => hnew ?_).hash_eq
      have hmem := hlater.handled x hx
      rwa [← hkeys _ (hfiles _ (h.handled x hx)) _ hf heq]
    · rw [← hp, habsolute f hf]
  · exact hlater.ready f hf hnew p hp

/-- A file is handled, or the run has ended. -/
theorem Ledger.handle (h : Ledger d project force files first turns calls w)
    (hmove : t.move = .handle file)
    (hkeys : ∀ f ∈ files, ∀ g ∈ files, d.key project f = d.key project g → f = g)
    (hfiles : ∀ f ∈ Move.order (turns.map Turn.move), f ∈ files) (hfile : file ∈ files)
    (hnew : file ∉ Move.order (turns.map Turn.move)) :
    Ledger d project force files first (turns ++ [t]) (calls ++ t.asked project force w.run.store)
      (w.step t.now.disk t.now.embed project force (.handle file)) := by
  have hlater := h.later t (t.asked project force w.run.store)
  have hother : ∀ x ∈ w.handled, d.key project x.1 ≠ d.key project file := by
    intro x hx heq
    have hmem := h.handled x hx
    exact hnew (hkeys _ (hfiles _ hmem) _ hfile heq ▸ hmem)
  rcases step_handle_cases w file with hs | ⟨p, -, hp, hs⟩
  · rw [hs]
    exact hlater
  · obtain ⟨u, hu, hprepare, hasked, s, hhash, heq⟩ := h.ready file hfile hnew p hp
    have hsame := h.frame (d.key project file) hother
    have hkept (q : String) (hq : d.key project file ≠ q) :
        w.run.store.SameAt (p.finish w.run.store).store q := by
      rw [heq]
      exact sameAt_finish hq _
    rw [hs]
    constructor
    case handled =>
      rw [List.forall_mem_append]
      refine ⟨hlater.handled, fun x hx => ?_⟩
      rw [List.mem_singleton.mp hx, List.map_append, List.map_singleton, hmove,
        Move.order_append_handle]
      exact List.mem_append_right _ (List.mem_singleton_self _)
    case ready => exact hlater.ready
    case frame =>
      intro q hq
      rw [List.forall_mem_append] at hq
      rw [TreeRun.store_add]
      exact (h.frame q hq.1).trans (hkept q (hq.2 (file, _) (List.mem_singleton_self _)))
    case effect =>
      intro x hx
      rw [TreeRun.store_add]
      rcases List.mem_append.mp hx with hx | hx
      · obtain ⟨v, hv, hvprepare, asked, hvasked, heffect⟩ := hlater.effect x hx
        exact ⟨v, hv, hvprepare, asked, hvasked, heffect.later (hkept _ (hother x hx).symm)⟩
      · rw [List.mem_singleton.mp hx]
        refine ⟨u, List.mem_append_left _ hu, hprepare, p.asked,
          fun text htext => List.mem_append_left _ (hasked text htext), ?_⟩
        rw [heq]
        exact fileEffect_finish hhash hsame
    case still =>
      intro hstill
      rw [List.forall_mem_append] at hstill
      rw [TreeRun.store_add, store_finish (hstill.2 (file, _) (List.mem_singleton_self _))]
      exact h.still hstill.1

/-- A document that was prepared of a file in one of some turns. -/
def Offered (d : Disk) (project : Path.Absolute) (turns : List Turn) (file : String)
    (doc : StoredDocument) : Prop :=
  ∃ t ∈ turns, t.move = .prepare file ∧
    fileOutcome t.now.disk t.now.embed project (d.absolute file) = .ok doc

/-- A file that is not processed leaves all under its key as it was. -/
theorem Ledger.unchanged (h : Ledger d project force files first turns calls w)
    {f : String} {r : Except IndexFault Bool} (hx : (f, r) ∈ w.handled)
    (hclass : FileClass.of r ≠ .processed) : first.SameAt w.run.store (d.key project f) := by
  obtain ⟨t, -, -, asked, -, heffect⟩ := h.effect _ hx
  exact heffect.same hclass

/-- A file that is processed has a document under its key that was prepared of it in the run. -/
theorem Ledger.written (h : Ledger d project force files first turns calls w)
    {f : String} {r : Except IndexFault Bool} (hx : (f, r) ∈ w.handled)
    (hclass : FileClass.of r = .processed) :
    ∃ doc, Offered d project turns f doc ∧ w.run.store.Bears doc := by
  obtain ⟨t, ht, hmove, asked, -, heffect⟩ := h.effect _ hx
  obtain ⟨doc, hnew, hbears⟩ := heffect.new hclass
  exact ⟨doc, ⟨t, ht, hmove, hnew⟩, hbears⟩

/-- Under every key all is as it was, or there is a new document as a whole. -/
theorem Ledger.old_or_new (h : Ledger d project force files first turns calls w)
    (hfiles : ∀ f ∈ Move.order (turns.map Turn.move), f ∈ files) (q : String) :
    first.SameAt w.run.store q ∨ ∃ file ∈ files, d.key project file = q ∧
      ∃ doc, Offered d project turns file doc ∧ w.run.store.Bears doc := by
  by_cases hq : ∃ x ∈ w.handled, d.key project x.1 = q
  · obtain ⟨⟨file, r⟩, hx, rfl⟩ := hq
    by_cases hclass : FileClass.of r = .processed
    · exact Or.inr ⟨file, hfiles _ (h.handled _ hx), rfl, h.written hx hclass⟩
    · exact Or.inl (h.unchanged hx hclass)
  · simp only [not_exists, not_and] at hq
    exact Or.inl (h.frame q hq)

end Steps

/-! ## Runs -/

section Runs

variable {d : Disk} {project : Path.Absolute} {force : Bool} {rule : WalkRule} {path : String}
variable {turns : List Turn}

/-- What is true of every file and of every key after any turns. -/
theorem ledger_through (hd : d.Proper) (project : Path.Absolute) (force : Bool) (s : Store)
    (h : Follows (d.walkedFiles rule path) (turns.map Turn.move)) :
    Ledger d project force (d.walkedFiles rule path) s turns
      ((start d s rule path).calls project force turns)
      ((start d s rule path).through project force turns) := by
  have hkeys : ∀ f ∈ d.walkedFiles rule path, ∀ g ∈ d.walkedFiles rule path,
      d.key project f = d.key project g → f = g :=
    fun f hf g hg => Disk.documentKey_walkedFiles hd project hf hg
  induction turns using List.reverseRecOn with
  | nil => exact ledger_start d project force _ s d rule path
  | append_singleton turns t ih =>
    rw [List.map_append, List.map_singleton] at h
    have ih := ih h.of_append
    rw [through_append, calls_append]
    cases hmove : t.move with
    | prepare file =>
      exact ih.prepare hmove (fun f hf => Disk.absolute_walkedFiles hd hf _) hkeys
        h.of_append.files
    | handle file =>
      rw [hmove] at h
      obtain ⟨hfile, hnew, -⟩ := h.handle
      exact ih.handle hmove hkeys h.of_append.files hfile hnew

/-- What has been counted after turns of a run that has not ended. -/
theorem counted_through (hd : d.Proper) {s : Store}
    (h : Follows (d.walkedFiles rule path) (turns.map Turn.move))
    (hended : ((start d s rule path).through project force turns).run.ended = none) :
    Counted (d.key project) (d.walkedFiles rule path) (turns.map Turn.move)
      ((start d s rule path).through project force turns) := by
  induction turns using List.reverseRecOn with
  | nil => exact counted_start _ _ d s rule path
  | append_singleton turns t ih =>
    rw [List.map_append, List.map_singleton] at h ⊢
    rw [through_append] at hended ⊢
    have ih := ih h.of_append (ended_step hended)
    cases hmove : t.move with
    | prepare file =>
      refine ih.prepare fun hfile => ?_
      rw [Disk.absolute_walkedFiles hd hfile]
      rfl
    | handle file =>
      rw [hmove] at h hended
      obtain ⟨hfile, -, hready⟩ := h.handle
      exact ih.handle hfile hready hended

end Runs

end Pool

end SourceAtlas
