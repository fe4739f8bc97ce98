import SourceAtlas.Embedding.Client
import SourceAtlas.Proofs.Fault.Result
import SourceAtlas.Proofs.Json.Depth
import SourceAtlas.Proofs.Number.Overflow

/-!
# What a request comes to

A reply comes to a vector that can be compared, or to a failure of the provider. Two kinds of
replies come to neither: a body that is nested deeper than is read, and a vector with an integer
beyond every double. They fail in ways that are not told apart from faults of the program. All this
is so no matter how deep a reply may be nested and what text it is taken for.

Results:
* `vectorOf_eq_tooLarge_iff`: which data fail for an integer.
* `vectorBy_fault_iff`: which replies fail in such a way.
* `vector_outcome`: all other replies, and no others, come to a usable vector or to a failure of the
  provider.
* `vectorBy_of_modest`: among them are texts that open no more lists and objects than may be nested
  and hold no integer beyond every double.
-/

namespace SourceAtlas

open Number

/-- Numbers that can be compared as a vector: some, all of them finite, and not all zero. -/
structure Usable (xs : List Float) : Prop where
  ne_nil : xs ≠ []
  finite : ∀ x ∈ xs, isFiniteFloat x
  nonzero : ∃ x ∈ xs, x != 0

/-- Values of which one is an integer beyond every double, and all before it are numbers. -/
def Oversized (vs : List Value) : Prop :=
  ∃ before k after, vs = before ++ .int k :: after ∧
    (∀ v ∈ before, ∃ x, v.castFloat = .ok x) ∧ overflowBound ≤ k.natAbs

/-- A text that is nested too deep, or that holds an oversized vector. -/
def Excessive (depth : Nat) (text : String) : Prop :=
  Json.readWithin depth text = .error .tooDeep ∨
    ∃ data vs, Json.readWithin depth text = .ok data ∧
      data.get? "embedding" = some (.list vs) ∧ Oversized vs

/-- A reply of no failing status that is taken for an excessive text. -/
def Overtaxes (reading : Reading) : Reply → Prop
  | .response status _ body head => ¬ (400 ≤ status ∧ status < 600) ∧
      ∃ text, reading.text? head body = some text ∧ Excessive reading.depth text
  | _ => False

/-! ## Elements -/

theorem castFloat_eq_tooLarge_iff {v : Value} :
    v.castFloat = .error .tooLarge ↔ ∃ k, v = .int k ∧ overflowBound ≤ k.natAbs := by
  simp only [← floatOfInt?_eq_none_iff]
  cases v with
  | int k => cases h : floatOfInt? k <;> simp [Value.castFloat, h]
  | text s => cases h : float? s <;> simp [Value.castFloat, h]
  | bytes bs => cases h : (Value.asciiText? bs).bind float? <;> simp [Value.castFloat, h]
  | _ => simp [Value.castFloat]

theorem vectorElement_eq_ok_iff {v : Value} {x : Float} :
    vectorElement v = .ok x ↔ v.castFloat = .ok x := mapError_eq_ok_iff

theorem vectorElement_eq_tooLarge_iff {v : Value} :
    vectorElement v = .error .tooLarge ↔ ∃ k, v = .int k ∧ overflowBound ≤ k.natAbs := by
  rw [← castFloat_eq_tooLarge_iff]
  constructor
  · intro h
    obtain ⟨e, he, heq⟩ := mapError_eq_error_iff.mp h
    cases e <;> cases heq
    exact he
  · intro h
    exact mapError_eq_error_iff.mpr ⟨_, h, rfl⟩

theorem vectorElement_error {v : Value} {e : EmbedError} (h : vectorElement v = .error e) :
    e = .notNumeric ∨ e = .tooLarge := by
  obtain ⟨e', -, rfl⟩ := mapError_eq_error_iff.mp h
  cases e' <;> simp

/-! ## Vectors -/

theorem mapM_vectorElement_eq_tooLarge_iff {vs : List Value} :
    vs.mapM vectorElement = .error .tooLarge ↔ Oversized vs := by
  rw [mapM_eq_error_iff]
  simp only [vectorElement_eq_ok_iff, vectorElement_eq_tooLarge_iff]
  constructor
  · rintro ⟨before, _, after, hvs, hbefore, k, rfl, hk⟩
    exact ⟨before, k, after, hvs, hbefore, hk⟩
  · rintro ⟨before, k, after, hvs, hbefore, hk⟩
    exact ⟨before, .int k, after, hvs, hbefore, k, rfl, hk⟩

theorem vectorOf_ok {data : Value} {xs : List Float} (h : vectorOf data = .ok xs) : Usable xs := by
  unfold vectorOf at h
  split at h
  · rename_i v vs _
    split at h
    · cases h
    · rename_i hxs
      split at h
      · rename_i hgood
        cases h
        rw [Bool.and_eq_true, List.all_eq_true, List.any_eq_true] at hgood
        exact ⟨mapM_ne_nil hxs (List.cons_ne_nil v vs), hgood.1, hgood.2⟩
      · cases h
  · cases h

theorem asList?_eq_some_iff {v : Value} {vs : List Value} : v.asList? = some vs ↔ v = .list vs := by
  cases v <;> simp [Value.asList?]

/-- Data fail for an integer iff they hold an oversized vector. -/
theorem vectorOf_eq_tooLarge_iff {data : Value} : vectorOf data = .error .tooLarge ↔
    ∃ vs, data.get? "embedding" = some (.list vs) ∧ Oversized vs := by
  have hlist : ∀ vs, data.get? "embedding" = some (.list vs) ↔
      (data.get? "embedding").bind Value.asList? = some vs := by
    intro vs
    simp only [Option.bind_eq_some_iff, asList?_eq_some_iff, exists_eq_right]
  simp only [hlist]
  unfold vectorOf
  split
  · rename_i v vs hget
    simp only [hget, Option.some.injEq, exists_eq_left']
    rw [← mapM_vectorElement_eq_tooLarge_iff]
    split
    · rename_i hxs
      rw [hxs]
    · rename_i hxs
      rw [hxs]
      split <;> simp
  · rename_i hne
    constructor
    · nofun
    · rintro ⟨vs, hget, before, k, after, rfl, -⟩
      cases before with
      | nil => exact absurd hget (hne _ _)
      | cons v before => exact absurd hget (hne _ _)

theorem vectorOf_error {data : Value} {e : EmbedError} (h : vectorOf data = .error e) :
    e.isUnavailable ∨ e = .tooLarge := by
  unfold vectorOf at h
  split at h
  · split at h
    · rename_i hxs
      cases h
      obtain ⟨-, v, -, -, -, hv⟩ := mapM_eq_error_iff.mp hxs
      rcases vectorElement_error hv with rfl | rfl
      · exact Or.inl rfl
      · exact Or.inr rfl
    · split at h <;> cases h
      exact Or.inl rfl
  · cases h
    exact Or.inl rfl

/-! ## Replies -/

theorem statusFailure?_eq_none_iff {url reason : String} {status : Int} :
    statusFailure? url status reason = none ↔ ¬ (400 ≤ status ∧ status < 600) := by
  simp only [statusFailure?, Bool.and_eq_true, decide_eq_true_eq]
  split
  · simp only [reduceCtorEq, false_iff]
    omega
  · split
    · simp only [reduceCtorEq, false_iff]
      omega
    · simp only [true_iff]
      omega

namespace Reading

variable {reading : Reading} {head : Head} {body : List UInt8}

theorem value_eq_ok_iff {data : Value} : reading.value head body = .ok data ↔
    ∃ text, reading.text? head body = some text ∧
      Json.readWithin reading.depth text = .ok data := by
  unfold value
  cases reading.text? head body with
  | none => simp
  | some text =>
    simp only [Option.some.injEq, exists_eq_left']
    exact mapError_eq_ok_iff

theorem value_eq_tooDeep_iff : reading.value head body = .error .tooDeep ↔
    ∃ text, reading.text? head body = some text ∧
      Json.readWithin reading.depth text = .error .tooDeep := by
  unfold value
  cases reading.text? head body with
  | none => simp
  | some text =>
    simp only [Option.some.injEq, exists_eq_left']
    constructor
    · intro h
      obtain ⟨e, he, heq⟩ := mapError_eq_error_iff.mp h
      cases e <;> cases heq
      exact he
    · intro h
      exact mapError_eq_error_iff.mpr ⟨_, h, rfl⟩

theorem value_error {e : EmbedError} (h : reading.value head body = .error e) :
    e.isUnavailable ∨ e = .tooDeep := by
  unfold value at h
  split at h
  · cases h
    exact Or.inl rfl
  · obtain ⟨e', -, rfl⟩ := mapError_eq_error_iff.mp h
    cases e' <;> simp [EmbedError.isUnavailable]

/-- What is read of a reply fails in a way that is no failure of the provider iff the reply is taken
    for an excessive text. -/
theorem bind_fault_iff :
    (∃ err, (reading.value head body).bind vectorOf = .error err ∧ ¬ err.isUnavailable) ↔
      ∃ text, reading.text? head body = some text ∧ Excessive reading.depth text := by
  have hcases : (∃ text, reading.text? head body = some text ∧ Excessive reading.depth text) ↔
      reading.value head body = .error .tooDeep ∨
        ∃ data, reading.value head body = .ok data ∧ vectorOf data = .error .tooLarge := by
    simp only [value_eq_tooDeep_iff, value_eq_ok_iff, vectorOf_eq_tooLarge_iff]
    constructor
    · rintro ⟨text, htext, hdeep | ⟨data, vs, hread, hget, hvs⟩⟩
      · exact Or.inl ⟨text, htext, hdeep⟩
      · exact Or.inr ⟨data, ⟨text, htext, hread⟩, vs, hget, hvs⟩
    · rintro (⟨text, htext, hdeep⟩ | ⟨data, ⟨text, htext, hread⟩, vs, hget, hvs⟩)
      · exact ⟨text, htext, Or.inl hdeep⟩
      · exact ⟨text, htext, Or.inr ⟨data, vs, hread, hget, hvs⟩⟩
  rw [hcases]
  cases hb : reading.value head body with
  | error err =>
    have hfault := value_error hb
    simp only [Except.bind, Except.error.injEq, reduceCtorEq, false_and, exists_false, or_false,
      exists_eq_left']
    constructor
    · exact hfault.resolve_left
    · rintro rfl
      simp [EmbedError.isUnavailable]
  | ok data =>
    simp only [Except.bind, reduceCtorEq, false_or, Except.ok.injEq, exists_eq_left']
    constructor
    · rintro ⟨err, herr, hfault⟩
      rw [herr, (vectorOf_error herr).resolve_left hfault]
    · intro herr
      exact ⟨.tooLarge, herr, by simp [EmbedError.isUnavailable]⟩

end Reading

namespace Endpoint

variable (e : Endpoint) (reading : Reading)

theorem vectorBy_of_success {status : Int} (hs : ¬ (400 ≤ status ∧ status < 600))
    (reason : String) (body : List UInt8) (head : Head) :
    e.vectorBy reading (.response status reason body head) =
      (reading.value head body).bind vectorOf := by
  simp only [vectorBy, statusFailure?_eq_none_iff.mpr hs]

theorem vectorBy_of_failing {status : Int} (hs : 400 ≤ status ∧ status < 600) (reason : String)
    (body : List UInt8) (head : Head) :
    ∃ text, e.vectorBy reading (.response status reason body head) = .error (.failed text) := by
  cases h : statusFailure? e.url status reason with
  | none => exact absurd hs (statusFailure?_eq_none_iff.mp h)
  | some text => exact ⟨text, by simp only [vectorBy, h]⟩

theorem vectorBy_ok {r : Reply} {xs : List Float} (h : e.vectorBy reading r = .ok xs) :
    Usable xs := by
  match r with
  | .timedOut _ | .failed _ | .invalid _ => cases h
  | .response status reason body head =>
    by_cases hs : 400 ≤ status ∧ status < 600
    · obtain ⟨text, hfail⟩ := e.vectorBy_of_failing reading hs reason body head
      cases hfail.symm.trans h
    · rw [e.vectorBy_of_success reading hs] at h
      cases hb : reading.value head body with
      | error err => rw [hb] at h; cases h
      | ok data => rw [hb] at h; exact vectorOf_ok h

/-- A reply fails in a way that is no failure of the provider iff it overtaxes who reads it. -/
theorem vectorBy_fault_iff {r : Reply} :
    (∃ err, e.vectorBy reading r = .error err ∧ ¬ err.isUnavailable) ↔ Overtaxes reading r := by
  match r with
  | .timedOut _ | .failed _ | .invalid _ => simp [vectorBy, Overtaxes, EmbedError.isUnavailable]
  | .response status reason body head =>
    by_cases hs : 400 ≤ status ∧ status < 600
    · obtain ⟨text, hfail⟩ := e.vectorBy_of_failing reading hs reason body head
      simp [hfail, Overtaxes, hs, EmbedError.isUnavailable]
    · rw [e.vectorBy_of_success reading hs, Reading.bind_fault_iff]
      exact (and_iff_right hs).symm

/-- **All that a request comes to.** A reply comes to a usable vector or to a failure of the
    provider, unless the text that it is taken for is nested too deep or its vector holds an integer
    beyond every double. Then it comes to neither. -/
theorem vector_outcome (r : Reply) :
    ((∃ xs, e.vectorBy reading r = .ok xs ∧ Usable xs) ∨
      ∃ err, e.vectorBy reading r = .error err ∧ err.isUnavailable) ↔ ¬ Overtaxes reading r := by
  rw [← e.vectorBy_fault_iff]
  cases h : e.vectorBy reading r with
  | ok xs => simp [e.vectorBy_ok reading h]
  | error err => simp

/-- A reply that is taken for a text which opens no more lists and objects than may be nested, and
    whose vector holds no integer beyond every double, comes to one or the other. -/
theorem vectorBy_of_modest {head : Head} {body : List UInt8} {text : String} (status : Int)
    (reason : String) (htext : reading.text? head body = some text)
    (hdepth : Json.openings text.toList ≤ reading.depth)
    (hfits : ∀ data vs k, Json.readWithin reading.depth text = .ok data →
      data.get? "embedding" = some (.list vs) → .int k ∈ vs → k.natAbs < overflowBound) :
    (∃ xs, e.vectorBy reading (.response status reason body head) = .ok xs ∧ Usable xs) ∨
      ∃ err, e.vectorBy reading (.response status reason body head) = .error err ∧
        err.isUnavailable := by
  by_contra hneither
  have hfault : ∃ err, e.vectorBy reading (.response status reason body head) = .error err ∧
      ¬ err.isUnavailable := by
    cases h : e.vectorBy reading (.response status reason body head) with
    | ok xs => exact absurd (Or.inl ⟨xs, h, e.vectorBy_ok reading h⟩) hneither
    | error err => exact ⟨err, rfl, fun herr => hneither (Or.inr ⟨err, h, herr⟩)⟩
  obtain ⟨-, text', htext', hexcessive⟩ := (e.vectorBy_fault_iff reading).mp hfault
  obtain rfl := Option.some.inj (htext.symm.trans htext')
  rcases hexcessive with hdeep | ⟨data, vs, hread, hget, before, k, after, rfl, -, hk⟩
  · exact absurd (Json.lt_openings_of_tooDeep hdeep) (Nat.not_lt.mpr hdepth)
  · exact absurd hk (Nat.not_le.mpr (hfits data _ k hread hget (by simp)))

end Endpoint

/-! ## A vector of one great integer -/

/-- The integer that alone makes the vector of what is read of a text. -/
def soleInt? : Json.Step Value → Option Int
  | .ok (data, []) =>
    match data.get? "embedding" with
    | some (.list [.int k]) => some k
    | _ => none
  | _ => none

theorem excessive_of_soleInt {depth : Nat} {cs : List Char} {k : Int}
    (hcs : soleInt? (Json.value ((Json.skipSpace cs).length + 1) depth (Json.skipSpace cs)) =
      some k)
    (hk : overflowBound ≤ k.natAbs) : Excessive depth (String.ofList cs) := by
  unfold soleInt? at hcs
  split at hcs
  · rename_i data hvalue
    split at hcs
    · rename_i hget
      cases hcs
      have hread : Json.readWithin depth (String.ofList cs) = .ok data := by
        unfold Json.readWithin
        rw [String.toList_ofList]
        dsimp only
        rw [hvalue]
        rfl
      exact Or.inr ⟨data, _, hread, hget, [], k, [], rfl, by simp, hk⟩
    · cases hcs
  · cases hcs

/-- A vector of one integer of four hundred digits. -/
def greatText : List Char :=
  "\x7b\"embedding\":[1".toList ++ List.replicate 399 '0' ++ "]\x7d".toList

/-- The bytes of the text. -/
def greatBody : List UInt8 := Text.Utf8.encode greatText

theorem text?_greatBody :
    Reading.standard.text? [] greatBody = some (String.ofList greatText) := by
  have hdecode : ((if greatBody.length ≤ 3 then none else
      (Charset.guess? greatBody).bind fun c => c.decode? greatBody).getD
        (Text.Utf8.decode greatBody)) = greatText := by decide +kernel
  exact congrArg (fun cs => some (String.ofList cs)) hdecode

theorem excessive_greatText : Excessive Reading.standard.depth (String.ofList greatText) := by
  have hsole : soleInt? (Json.value ((Json.skipSpace greatText).length + 1) 1000
      (Json.skipSpace greatText)) = some (Nat.pow 10 399) := by decide +kernel
  exact excessive_of_soleInt hsole (by decide +kernel)

/-- The endpoint of a provider on this machine. -/
def localEndpoint : Endpoint := .ofUrl "http://localhost:11434" "all-minilm" 10 120

/-- A reply that comes neither to a vector nor to a failure of the provider. -/
theorem vector_greatBody :
    ¬ ((∃ xs, localEndpoint.vector (.response 200 "OK" greatBody) = .ok xs ∧ Usable xs) ∨
      ∃ err, localEndpoint.vector (.response 200 "OK" greatBody) = .error err ∧
        err.isUnavailable) := by
  have hover : Overtaxes .standard (.response 200 "OK" greatBody) :=
    ⟨by decide, _, text?_greatBody, excessive_greatText⟩
  obtain ⟨err, herr, hfault⟩ := (localEndpoint.vectorBy_fault_iff .standard).mpr hover
  rw [Endpoint.vector, herr]
  simpa using hfault

end SourceAtlas
