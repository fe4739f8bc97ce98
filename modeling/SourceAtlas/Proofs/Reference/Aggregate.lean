import Mathlib.Data.List.Induction
import Mathlib.Data.List.Nodup
import SourceAtlas.Reference.Aggregate

/-!
# Groups of occurrences

Grouping takes references one by one. What is grouped at any time is told by the names seen so far,
each at the place where it is seen first, with all of its occurrences so far.

Results:
* `eraseDups_filter`, `pairwise_idxOf_eraseDups`: names without repetition stand in the order in
  which they are first seen, also where some are left out.
* `add_groupsOf`, `foldl_add`: one reference more, and all of them.
* `aggregate_eq`: the groups of the names that survive.
* `aggregate_partition`: they are a partition of the references with such names.
-/

namespace SourceAtlas

/-! ## Names without repetition -/

section Names

variable {α : Type} [DecidableEq α]

theorem eraseDups_concat (l : List α) (a : α) :
    (l ++ [a]).eraseDups = if a ∈ l then l.eraseDups else l.eraseDups ++ [a] := by
  rw [List.eraseDups_append]
  by_cases h : a ∈ l <;> simp [List.removeAll, h, List.eraseDups_cons]

theorem eraseDups_filter (p : α → Bool) (l : List α) :
    (l.filter p).eraseDups = l.eraseDups.filter p := by
  induction l using List.reverseRecOn with
  | nil => rfl
  | append_singleton l a ih =>
    rw [List.filter_append, eraseDups_concat]
    cases hp : p a with
    | true =>
      rw [List.filter_cons_of_pos hp, List.filter_nil, eraseDups_concat, ih]
      by_cases h : a ∈ l <;> simp [h, hp]
    | false =>
      rw [List.filter_cons_of_neg (by simp [hp]), List.filter_nil, List.append_nil, ih]
      by_cases h : a ∈ l <;> simp [h, hp]

/-- Each element stands at the place where it is seen first. -/
theorem pairwise_idxOf_eraseDups (l : List α) :
    l.eraseDups.Pairwise fun a b => l.idxOf a < l.idxOf b := by
  induction l using List.reverseRecOn with
  | nil => exact .nil
  | append_singleton l a ih =>
    have hold : l.eraseDups.Pairwise fun b c => (l ++ [a]).idxOf b < (l ++ [a]).idxOf c := by
      refine ih.imp_of_mem fun hb hc hlt => ?_
      rwa [List.idxOf_append_of_mem (List.mem_eraseDups.mp hb),
        List.idxOf_append_of_mem (List.mem_eraseDups.mp hc)]
    rw [eraseDups_concat]
    split
    · exact hold
    · rename_i hnew
      refine List.pairwise_append.mpr ⟨hold, List.pairwise_singleton _ _, fun b hb c hc => ?_⟩
      have hb := List.mem_eraseDups.mp hb
      rw [List.mem_singleton.mp hc, List.idxOf_append_of_mem hb,
        List.idxOf_append_of_notMem hnew]
      exact Nat.lt_of_lt_of_le (List.idxOf_lt_length_of_mem hb) (Nat.le_add_right _ _)

theorem nodup_eraseDups (l : List α) : l.eraseDups.Nodup :=
  (pairwise_idxOf_eraseDups l).imp fun {a b} h (heq : a = b) => Nat.lt_irrefl _ (heq ▸ h)

end Names

namespace Variables

/-! ## Grouping -/

/-- All that occurs under a name, in order. -/
def occurrences (name : Cell) (refs : List (Cell × Occurrence)) : List Occurrence :=
  (refs.filter fun r => r.1 == name).map Prod.snd

/-- Names with all of their occurrences. -/
def groupsOf (refs : List (Cell × Occurrence)) (names : List Cell) : Variables :=
  names.map fun n => (n, occurrences n refs)

theorem occurrences_concat (name : Cell) (refs : List (Cell × Occurrence))
    (r : Cell × Occurrence) : occurrences name (refs ++ [r]) =
      if r.1 = name then occurrences name refs ++ [r.2] else occurrences name refs := by
  unfold occurrences
  rw [List.filter_append]
  by_cases h : r.1 = name <;> simp [h]

theorem occurrences_eq_nil {name : Cell} {refs : List (Cell × Occurrence)}
    (h : name ∉ refs.map Prod.fst) : occurrences name refs = [] := by
  unfold occurrences
  rw [List.map_eq_nil_iff, List.filter_eq_nil_iff]
  intro r hr heq
  exact h (List.mem_map.mpr ⟨r, hr, beq_iff_eq.mp heq⟩)

/-- One reference more. -/
theorem add_groupsOf {refs : List (Cell × Occurrence)} (r : Cell × Occurrence)
    {names : List Cell} (hnodup : names.Nodup)
    (hnew : r.1 ∉ names → occurrences r.1 refs = []) :
    (groupsOf refs names).add r.1 r.2 =
      groupsOf (refs ++ [r]) (if r.1 ∈ names then names else names ++ [r.1]) := by
  induction names with
  | nil => simp [groupsOf, add, occurrences_concat, hnew]
  | cons n names ih =>
    obtain ⟨hn, hnodup⟩ := List.nodup_cons.mp hnodup
    have hcons (rs : List (Cell × Occurrence)) (ns : List Cell) :
        groupsOf rs (n :: ns) = (n, occurrences n rs) :: groupsOf rs ns := rfl
    rw [hcons, add]
    by_cases hname : n = r.1
    · -- The name has its group: no other one changes.
      have hothers : groupsOf (refs ++ [r]) names = groupsOf refs names := by
        refine List.map_congr_left fun m hm => ?_
        have hne : r.1 ≠ m := fun heq => hn (hname.trans heq ▸ hm)
        rw [occurrences_concat, if_neg hne]
      rw [if_pos (beq_iff_eq.mpr hname), if_pos (hname ▸ List.mem_cons_self), hcons, hothers,
        occurrences_concat, if_pos hname.symm]
    · have hmem : r.1 ∈ n :: names ↔ r.1 ∈ names := by
        rw [List.mem_cons, or_iff_right (Ne.symm hname)]
      have hgroup : occurrences n (refs ++ [r]) = occurrences n refs := by
        rw [occurrences_concat, if_neg (Ne.symm hname)]
      rw [if_neg (mt beq_iff_eq.mp hname), ih hnodup fun h => hnew (mt hmem.mp h), ← hgroup,
        ← hcons]
      simp only [hmem]
      split <;> rfl

theorem foldl_add (refs : List (Cell × Occurrence)) :
    refs.foldl (fun groups r => add r.1 r.2 groups) [] =
      groupsOf refs (refs.map Prod.fst).eraseDups := by
  induction refs using List.reverseRecOn with
  | nil => rfl
  | append_singleton refs r ih =>
    rw [List.foldl_append, ih, List.map_append, List.map_singleton, eraseDups_concat,
      List.foldl_cons, List.foldl_nil, add_groupsOf r (nodup_eraseDups _)]
    · simp only [List.mem_eraseDups]
    · intro h
      exact occurrences_eq_nil (mt List.mem_eraseDups.mpr h)

/-- How many occurrences there are in all groups. -/
def size (groups : Variables) : Nat := (groups.flatMap Prod.snd).length

theorem size_add (name : Cell) (o : Occurrence) (groups : Variables) :
    (groups.add name o).size = groups.size + 1 := by
  induction groups with
  | nil => rfl
  | cons g groups ih =>
    obtain ⟨n, os⟩ := g
    have hcons (os : List Occurrence) (gs : Variables) :
        size ((n, os) :: gs) = os.length + gs.size := by
      rw [size, List.flatMap_cons, List.length_append, size]
    rw [add]
    split
    · rw [hcons, hcons, List.length_append, List.length_singleton]
      omega
    · rw [hcons, hcons, ih, Nat.add_assoc]

theorem size_foldl_add (refs : List (Cell × Occurrence)) (groups : Variables) :
    (refs.foldl (fun groups r => add r.1 r.2 groups) groups).size =
      groups.size + refs.length := by
  induction refs generalizing groups with
  | nil => rfl
  | cons r refs ih =>
    rw [List.foldl_cons, ih, size_add, List.length_cons]
    omega

/-! ## Names that survive -/

/-- A name is shown: it is not empty, not ignored, and occurs often enough but at least once. -/
def Survives (refs : List (Cell × Occurrence)) (ignored : List String) (least : Int)
    (name : Cell) : Prop :=
  ¬ name.isEmpty ∧ name ∉ ignored.map Cell.text ∧ max 1 least ≤ count name refs

instance (refs : List (Cell × Occurrence)) (ignored : List String) (least : Int)
    (name : Cell) : Decidable (Survives refs ignored least name) :=
  inferInstanceAs (Decidable (_ ∧ _ ∧ _))

section Aggregate

variable (refs : List (Cell × Occurrence)) (ignored : List String) (least : Int)

/-- The references with a name that survives, with their names. -/
def surviving : List (Cell × Occurrence) :=
  refs.filter fun r => Survives refs ignored least r.1

theorem count_pos_iff {name : Cell} : 0 < count name refs ↔ name ∈ refs.map Prod.fst := by
  rw [count, ← List.countP_eq_length_filter, List.countP_pos_iff]
  simp only [beq_iff_eq, List.mem_map]

/-- Leaving out references by their names does not change how often the other names occur. -/
theorem count_filter {p : Cell → Bool} {name : Cell} (hp : p name) :
    count name (refs.filter fun r => p r.1) = count name refs := by
  unfold count
  rw [List.filter_filter]
  refine congrArg List.length (List.filter_congr fun r _ => ?_)
  by_cases h : r.1 = name <;> simp [h, hp]

/-- A name is shown if it occurs often enough. -/
def admitted (ignored : List String) (name : Cell) : Bool :=
  !name.isEmpty && !(ignored.map Cell.text).contains name

theorem survives_iff {name : Cell} (hname : name ∈ refs.map Prod.fst) :
    Survives refs ignored least name ↔
      admitted ignored name ∧ least ≤ count name (refs.filter fun r => admitted ignored r.1) := by
  have hseen : 0 < count name refs := (count_pos_iff refs).mpr hname
  have hadmitted : admitted ignored name = true ↔
      ¬ name.isEmpty ∧ name ∉ ignored.map Cell.text := by
    simp [admitted]
  have hleast : max 1 least ≤ count name refs ↔ least ≤ count name refs := by omega
  unfold Survives
  rw [← and_assoc, ← hadmitted, hleast]
  exact and_congr_right fun hp => by rw [count_filter refs hp]

theorem aggregate_eq_foldl : aggregate refs ignored least =
    (surviving refs ignored least).foldl (fun groups r => add r.1 r.2 groups) [] := by
  have hcommon : ((refs.filter fun r => admitted ignored r.1).filter fun r =>
      decide (least ≤ count r.1 (refs.filter fun r => admitted ignored r.1))) =
      surviving refs ignored least := by
    unfold surviving
    rw [List.filter_filter]
    refine List.filter_congr fun r hr => ?_
    rw [decide_eq_decide.mpr (survives_iff refs ignored least (List.mem_map_of_mem hr)),
      Bool.decide_and, Bool.decide_coe, Bool.and_comm]
  rw [← hcommon]
  rfl

/-- The groups are those of the names that survive, in the order in which they are first seen. -/
theorem aggregate_eq : aggregate refs ignored least = groupsOf refs
    ((refs.map Prod.fst).eraseDups.filter fun n => Survives refs ignored least n) := by
  have hnames : (surviving refs ignored least).map Prod.fst =
      (refs.map Prod.fst).filter fun n => Survives refs ignored least n := by
    rw [surviving, List.filter_map]
    rfl
  rw [aggregate_eq_foldl, foldl_add, hnames, eraseDups_filter]
  refine List.map_congr_left fun n hn => ?_
  have hn : Survives refs ignored least n := of_decide_eq_true (List.mem_filter.mp hn).2
  -- A name that survives keeps all of its occurrences.
  unfold occurrences surviving
  rw [List.filter_filter]
  refine congrArg (fun rs : List (Cell × Occurrence) => (n, rs.map Prod.snd))
    (List.filter_congr fun r _ => ?_)
  by_cases h : r.1 = n <;> simp [h, hn]

/-- **Groups are a partition.** The names that are shown are those that are not empty, not ignored
    and occur often enough, in the order in which they are first seen. Under a name stand its
    occurrences, all of them and in their order, so that there are as many as references with such
    names. To ask for less than one occurrence is to ask for one. -/
theorem aggregate_partition :
    ((aggregate refs ignored least).map Prod.fst).Pairwise (fun a b =>
      (refs.map Prod.fst).idxOf a < (refs.map Prod.fst).idxOf b) ∧
    (∀ n, n ∈ (aggregate refs ignored least).map Prod.fst ↔ Survives refs ignored least n) ∧
    (∀ g ∈ aggregate refs ignored least, g.2 = occurrences g.1 refs) ∧
    (aggregate refs ignored least).size = refs.countP (fun r => Survives refs ignored least r.1) ∧
    aggregate refs ignored least = aggregate refs ignored (max 1 least) := by
  have hkeys : (aggregate refs ignored least).map Prod.fst =
      (refs.map Prod.fst).eraseDups.filter fun n => Survives refs ignored least n := by
    rw [aggregate_eq, groupsOf, List.map_map]
    exact List.map_id _
  refine ⟨?_, fun n => ?_, fun g hg => ?_, ?_, ?_⟩
  · rw [hkeys]
    exact (pairwise_idxOf_eraseDups _).sublist List.filter_sublist
  · rw [hkeys, List.mem_filter, List.mem_eraseDups, decide_eq_true_iff]
    refine and_iff_right_of_imp fun hn => (count_pos_iff refs).mp ?_
    have := hn.2.2
    omega
  · rw [aggregate_eq] at hg
    obtain ⟨n, -, rfl⟩ := List.mem_map.mp hg
    rfl
  · rw [aggregate_eq_foldl, size_foldl_add, surviving, List.countP_eq_length_filter]
    exact Nat.zero_add _
  · have hmax : max 1 (max 1 least) = max 1 least := by omega
    have hsurvives : Survives refs ignored (max 1 least) = Survives refs ignored least := by
      funext n
      rw [Survives, Survives, hmax]
    rw [aggregate_eq, aggregate_eq]
    simp only [hsurvives]

end Aggregate

end Variables

end SourceAtlas
