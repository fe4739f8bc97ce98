import Mathlib.Data.List.Infix
import SourceAtlas.Proofs.Search.Rank
import SourceAtlas.Proofs.Search.Score
import SourceAtlas.Proofs.Store.Views

/-!
# What a search finds

A search finds the documents that score best, in the order of falling scores, and those with equal
scores in the order of their paths. Every result is of one document, whose content and names it
shows, and of the documents that could have been found none that is left out ranks before one that
is not.

Results:
* `map_fst_scored`: the documents that have a score are the usable ones, in their order.
* `isTop_topResults`: the results for documents in the order of their paths.
* `queryVector_eq_ok_iff`: which vectors are accepted for a query.
* `search_isTop`: what a search of any store finds, and how it depends on the wanted number.
-/

namespace SourceAtlas

open Text

/-! ## Scores -/

/-- Whether a document can be found: its vector is as long as the query's and has a direction. -/
def StoredDocument.usable (v : List Float) (d : StoredDocument) : Bool :=
  d.vector.length == v.length && decide (0 < norm d.floats)

theorem scoreOf_eq_ok_iff {v : List Float} {d : StoredDocument} {x : Float} :
    scoreOf v d = .ok x ↔ d.usable v ∧ x = similarity d.floats v := by
  have hlength : d.floats.length = d.vector.length := List.length_map _
  unfold scoreOf StoredDocument.usable
  dsimp only
  rw [hlength]
  by_cases hl : d.vector.length = v.length
  · by_cases hn : 0 < norm d.floats <;> simp [hl, hn, @eq_comm _ x]
  · simp [hl]

theorem mem_scored {v : List Float} {docs : List StoredDocument} {i : StoredDocument × Float} :
    i ∈ scored v docs ↔ i.1 ∈ docs ∧ scoreOf v i.1 = .ok i.2 := by
  rw [scored_eq, List.mem_filterMap]
  constructor
  · rintro ⟨d, hd, hi⟩
    cases hs : scoreOf v d with
    | error u =>
      rw [hs] at hi
      cases hi
    | ok x =>
      rw [hs] at hi
      cases hi
      exact ⟨hd, hs⟩
  · rintro ⟨hd, hs⟩
    exact ⟨i.1, hd, by rw [hs]; rfl⟩

/-- The documents that have a score are the usable ones, in their order. -/
theorem map_fst_scored (v : List Float) (docs : List StoredDocument) :
    (scored v docs).map Prod.fst = docs.filter (StoredDocument.usable v) := by
  rw [scored_eq, List.map_filterMap, ← List.filterMap_eq_filter]
  refine List.filterMap_congr fun d _ => ?_
  cases hs : scoreOf v d with
  | ok x =>
    have hu := (scoreOf_eq_ok_iff.mp hs).1
    simp [Except.toOption, Option.guard, hu]
  | error u =>
    have hu : d.usable v = false := by
      rw [← Bool.not_eq_true]
      intro hu
      rw [scoreOf_eq_ok_iff.mpr ⟨hu, rfl⟩] at hs
      cases hs
    simp [Except.toOption, Option.guard, hu]

theorem length_scored (v : List Float) (docs : List StoredDocument) :
    (scored v docs).length = docs.countP (StoredDocument.usable v) := by
  rw [List.countP_eq_length_filter, ← map_fst_scored, List.length_map]

/-! ## Results -/

/-- One path stands before another by its bytes. -/
def PathBefore (p q : String) : Prop := Utf8.encode p.toList < Utf8.encode q.toList

/-- What a scored document is shown as. -/
def shown (rule : NameRule) (i : StoredDocument × Float) : SearchResult :=
  ⟨i.1.path, i.1.content, i.2, i.1.names rule⟩

/-- The results are the best of the documents, as many as are wanted but at least one. Each shows
    the content of its document and, grouped by name, the references of that document: those whose
    names are not ignored and occur often enough. -/
structure IsTop (rule : NameRule) (v : List Float) (docs : List StoredDocument) (k : Int)
    (results : List SearchResult) : Prop where
  length : results.length = if docs.countP (StoredDocument.usable v) = 0 then 0
    else (max 1 (min k (docs.countP (StoredDocument.usable v)))).toNat
  distinct : (results.map SearchResult.path).Nodup
  falling : results.Pairwise fun a b => ¬ a.score < b.score
  ties : results.Pairwise fun a b => ¬ b.score < a.score → PathBefore a.path b.path
  own : ∀ r ∈ results, ∃ d ∈ docs, d.path = r.path ∧ scoreOf v d = .ok r.score ∧
    r.content = d.content ∧ r.names = Variables.aggregate
      (d.references.map fun o => (o.name, ⟨o.line, o.kind, o.source⟩)) rule.ignored
      (max 1 rule.least)
  best : ∀ d ∈ docs, ∀ x, scoreOf v d = .ok x → d.path ∉ results.map SearchResult.path →
    ∀ r ∈ results, ¬ r.score < x ∧ (¬ x < r.score → PathBefore r.path d.path)

section Top

variable {v : List Float} {docs : List StoredDocument}

theorem topResults_eq (rule : NameRule) (k : Int) (items : List (StoredDocument × Float)) :
    topResults rule k items =
      ((Rank.rank items).take (resultCount k items.length)).map (shown rule) := rfl

theorem length_topResults (rule : NameRule) (k : Int) (items : List (StoredDocument × Float)) :
    (topResults rule k items).length =
      if items.length = 0 then 0 else (max 1 (min k items.length)).toNat := by
  have hperm := (Rank.rank_perm items).length_eq
  rw [topResults_eq, List.length_map, List.length_take, hperm]
  unfold resultCount
  split <;> omega

variable (hdocs : docs.Pairwise fun a b => PathBefore a.path b.path)
  (hnumeric : ∀ d ∈ docs, ∀ x, scoreOf v d = .ok x → x.isNaN = false)

include hdocs hnumeric

/-- The best results for documents in the order of their paths. -/
theorem isTop_topResults (rule : NameRule) (k : Int) :
    IsTop rule v docs k (topResults rule k (scored v docs)) := by
  have hnum : Rank.Numeric (scored v docs) := fun i hi =>
    hnumeric i.1 (mem_scored.mp hi).1 i.2 (mem_scored.mp hi).2
  have hpaths : ((scored v docs).map Prod.fst).Pairwise fun a b => PathBefore a.path b.path := by
    rw [map_fst_scored]
    exact hdocs.sublist List.filter_sublist
  have hperm := Rank.rank_perm (scored v docs)
  have hsub : ((Rank.rank (scored v docs)).take (resultCount k (scored v docs).length)).Sublist
      (Rank.rank (scored v docs)) := List.take_sublist _ _
  have hsorted := (Rank.pairwise_rank hnum hpaths).sublist hsub
  have hmem : ∀ i ∈ (Rank.rank (scored v docs)).take (resultCount k (scored v docs).length),
      i ∈ scored v docs := fun i hi => hperm.mem_iff.mp (hsub.subset hi)
  constructor
  case length => rw [length_topResults, length_scored]
  case distinct =>
    have hnodup : ((scored v docs).map fun i => i.1.path).Nodup := by
      refine List.pairwise_map.mpr ((List.pairwise_map.mp hpaths).imp fun hlt heq => ?_)
      unfold PathBefore at hlt
      rw [heq] at hlt
      exact List.lt_irrefl _ hlt
    rw [topResults_eq, List.map_map]
    exact ((hperm.map _).nodup_iff.mpr hnodup).sublist (hsub.map _)
  case falling => exact List.pairwise_map.mpr (hsorted.imp fun h => h.1)
  case ties => exact List.pairwise_map.mpr (hsorted.imp fun h => h.2)
  case own =>
    intro r hr
    obtain ⟨i, hi, rfl⟩ := List.mem_map.mp hr
    obtain ⟨hd, hs⟩ := mem_scored.mp (hmem i hi)
    exact ⟨i.1, hd, rfl, hs, rfl, rfl⟩
  case best =>
    intro d hd x hx hnot r hr
    obtain ⟨i, hi, rfl⟩ := List.mem_map.mp hr
    refine Rank.outranks_of_mem_take hnum hpaths hi (b := (d, x)) (mem_scored.mpr ⟨hd, hx⟩) ?_
    intro hin
    exact hnot (List.mem_map.mpr ⟨shown rule (d, x), List.mem_map_of_mem hin, rfl⟩)

end Top

/-- Who wants more gets the same results and others behind them. -/
theorem topResults_prefix (rule : NameRule) (items : List (StoredDocument × Float)) {k k' : Int}
    (h : k ≤ k') : topResults rule k items <+: topResults rule k' items := by
  rw [topResults_eq, topResults_eq]
  refine (List.take_prefix_take_left ?_).map _
  unfold resultCount
  omega

/-! ## Searches -/

/-- The vector of a query is accepted iff it is a list of numbers that has a direction and is as
    long as the stored vectors. -/
theorem queryVector_eq_ok_iff {answer : Except EmbedderFault Nested} {expected : Option Nat}
    {v : List Float} : queryVector answer expected = .ok v ↔
      ∃ nested a, answer = .ok nested ∧ nested.toDoubles = .ok a ∧ a.dims.length = 1 ∧
        a.elements.all (· == 0) = false ∧ (∀ n, expected = some n → a.elements.length = n) ∧
        (norm a.elements == 0) = false ∧ v = a.elements := by
  have hdirected (a : Doubles) : ¬ (a.dims.length != 1 || a.elements.all (· == 0)) = true ↔
      a.dims.length = 1 ∧ a.elements.all (· == 0) = false := by
    rw [Bool.not_eq_true, Bool.or_eq_false_iff, bne_eq_false_iff_eq]
  unfold queryVector
  simp only [bind_eq_ok_iff, mapError_eq_ok_iff, throw_bind, ite_error_eq_ok_iff, hdirected]
  cases expected with
  | none => simp [ite_error_eq_ok_iff, pure_eq_ok_iff, and_assoc]
  | some n =>
    simp only [ite_error_eq_ok_iff, pure_eq_ok_iff]
    simp [and_assoc]

namespace Store

/-- What a search comes to when the query has a vector. -/
theorem results_search {s : Store} {docs : List StoredDocument} {embed : Embedder}
    {query : String} {v : List Float} (hall : s.all = .ok docs)
    (hv : queryVector (embed query) s.tables.dimensions = .ok v) (rule : NameRule) (k : Int) :
    (s.search embed rule query k).results = .ok (topResults rule k (scored v docs)) := by
  unfold Store.search
  rw [hall]
  cases docs with
  | nil => simp [scored_eq, topResults, Rank.rank, Rank.byScore]
  | cons d ds =>
    dsimp only
    rw [hv]
    dsimp only
    split
    · rename_i hempty
      rw [List.isEmpty_iff.mp hempty]
      simp [topResults, Rank.rank, Rank.byScore]
    · rfl

/-- **A search finds the best.** After any writes to an empty store, for a query whose vector is
    accepted and for which no document scores NaN, a search finds the best documents, as many as
    are wanted but at least one, unless none can be found. Who wants more gets the same results
    and others behind them. -/
theorem search_isTop (location : String) (ws : List Write) :
    ∃ docs, ((fresh location).writeAll ws).all = .ok docs ∧
      ∀ (embed : Embedder) (query : String) (v : List Float),
        queryVector (embed query) ((fresh location).writeAll ws).tables.dimensions = .ok v →
        (∀ d ∈ docs, ∀ x, scoreOf v d = .ok x → x.isNaN = false) →
        ∀ rule : NameRule, ∃ results : Int → List SearchResult,
          (∀ k, (((fresh location).writeAll ws).search embed rule query k).results =
            .ok (results k) ∧ IsTop rule v docs k (results k)) ∧
          ∀ k k', k ≤ k' → results k <+: results k' := by
  obtain ⟨docs, hshows⟩ := (views_of_run location ws).1
  refine ⟨docs, hshows.all, fun embed query v hv hnumeric rule => ?_⟩
  refine ⟨fun k => topResults rule k (scored v docs), fun k => ?_, fun k k' hk => ?_⟩
  · exact ⟨results_search hshows.all hv rule k, isTop_topResults hshows.ascending hnumeric rule k⟩
  · exact topResults_prefix rule _ hk

/-- A draft without references. -/
def plainDraft (path : String) : Draft where
  path := path
  content := path
  vector := some (.many [.one (.float 1)])
  references := []
  hash := ""
  language := "js"

/-- Two documents with one vector, written against the order of their paths. -/
def twins : List Write := [.upsert (plainDraft "b.js"), .upsert (plainDraft "a.js")]

set_option maxRecDepth 20000 in
theorem documents_twins : ((fresh ":memory:").writeAll twins).tables.documents =
    ["b.js", "a.js"].map fun path => ⟨path, path, [0, 0, 128, 63], 1, "", "js"⟩ := by rfl

theorem search_isTop_twins :
    ∃ docs, ((fresh ":memory:").writeAll twins).all = .ok docs ∧
      queryVector (.ok (.many [.one (.float 1)]))
        ((fresh ":memory:").writeAll twins).tables.dimensions = .ok [1] ∧
      (∀ d ∈ docs, ∀ x, scoreOf [1] d = .ok x → x.isNaN = false) ∧
      ∃ results, (((fresh ":memory:").writeAll twins).search
          (fun _ => .ok (.many [.one (.float 1)])) ⟨[], 1⟩ "x" 1).results = .ok results ∧
        IsTop ⟨[], 1⟩ [1] docs 1 results := by
  obtain ⟨docs, hall, hsearch⟩ := search_isTop ":memory:" twins
  have hquery : queryVector (.ok (.many [.one (.float 1)]))
      ((fresh ":memory:").writeAll twins).tables.dimensions = .ok [1] := by
    have hzero : [(1 : Float)].all (· == 0) = false := by decide +kernel
    have hnorm : (norm [1] == 0) = false := by decide +kernel
    have hdims : ((fresh ":memory:").writeAll twins).tables.dimensions = some 1 := by
      unfold Tables.dimensions
      rw [documents_twins]
      rfl
    rw [queryVector_eq_ok_iff, hdims]
    exact ⟨_, ⟨[1], [1]⟩, rfl, rfl, rfl, hzero, fun n hn => Option.some.inj hn, hnorm, rfl⟩
  have hnumeric : ∀ d ∈ docs, ∀ x, scoreOf [1] d = .ok x → x.isNaN = false := by
    intro d hd x hx
    have hlisted : docs = ((fresh ":memory:").writeAll twins).tables.listed := by
      have hopen : ((fresh ":memory:").writeAll twins).isOpen := by rw [writeAll_frame]; rfl
      have hpresent := (wellFormed_run ":memory:" twins).present
      rw [all_eq hopen hpresent] at hall
      exact (Except.ok.inj hall).symm
    rw [hlisted] at hd
    obtain ⟨row, hrow, rfl⟩ := List.mem_map.mp hd
    have hrow := (Tables.sortedDocuments_perm _).mem_iff.mp hrow
    rw [documents_twins] at hrow
    obtain ⟨path, -, rfl⟩ := List.mem_map.mp hrow
    rw [(scoreOf_eq_ok_iff.mp hx).2]
    show (similarity ((decodeVector [0, 0, 128, 63]).map Single.toFloat) [1]).isNaN = false
    decide +kernel
  obtain ⟨results, hresults, -⟩ :=
    hsearch (fun _ => .ok (.many [.one (.float 1)])) "x" [1] hquery hnumeric ⟨[], 1⟩
  exact ⟨docs, hall, hquery, hnumeric, results 1, hresults 1⟩

end Store

end SourceAtlas
