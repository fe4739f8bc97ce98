import Mathlib.Data.List.DropRight
import SourceAtlas.Embedding.Client

/-!
# Spellings of an address

A provider can be told by its root or by the address of one of its services, with slashes at the
end or without. The mark of a service is looked for before the slashes are dropped, so that a slash
behind an address that ends in `/api` completes the mark, and leads to another root.

Results:
* `beforeLast?_eq_some_iff`: what stands before the last occurrence of a word.
* `rootOf_slash_iff`: a slash behind an address changes its root iff the address ends in `/api`.
* `rootOf_url`: the address that requests go to has the root that it was made of.
* `url_spelling`: which spellings of an address lead to the same place.
-/

namespace SourceAtlas.Endpoint

/-! ## The last occurrence of a word -/

section Word

variable {word cs front back : List Char}

theorem beforeLast?_eq_none_iff (hw : word ≠ []) : beforeLast? word cs = none ↔ ¬ word <:+: cs := by
  induction cs with
  | nil => simp [beforeLast?, hw]
  | cons c cs ih =>
    rw [beforeLast?, List.infix_cons_iff, not_or, ← ih]
    cases beforeLast? word cs <;> simp

theorem beforeLast?_append (hw : word ≠ []) (hlast : ¬ word <:+: (word ++ back).tail) :
    beforeLast? word (front ++ word ++ back) = some front := by
  induction front with
  | nil =>
    obtain ⟨c, cs, hcs⟩ := List.exists_cons_of_ne_nil (List.append_ne_nil_of_left_ne_nil hw back)
    have hprefix : word <+: c :: cs := hcs ▸ List.prefix_append word back
    rw [hcs, List.tail_cons, ← beforeLast?_eq_none_iff hw] at hlast
    rw [List.nil_append, hcs, beforeLast?, hlast]
    exact if_pos (List.isPrefixOf_iff_prefix.mpr hprefix)
  | cons c front ih =>
    rw [List.cons_append, List.cons_append, beforeLast?, ih]

/-- A text stands before the last occurrence of a word iff the word follows it and does not occur
    any later. -/
theorem beforeLast?_eq_some_iff (hw : word ≠ []) : beforeLast? word cs = some front ↔
    ∃ back, cs = front ++ word ++ back ∧ ¬ word <:+: (word ++ back).tail := by
  constructor
  · intro h
    induction cs generalizing front with
    | nil => cases h
    | cons c cs ih =>
      rw [beforeLast?] at h
      cases hrest : beforeLast? word cs with
      | some f =>
        rw [hrest] at h
        cases h
        obtain ⟨back, hcs, hlast⟩ := ih hrest
        exact ⟨back, congrArg (c :: ·) hcs, hlast⟩
      | none =>
        rw [hrest] at h
        obtain ⟨hword, h⟩ := Option.ite_none_right_eq_some.mp h
        cases h
        obtain ⟨back, hback⟩ := List.isPrefixOf_iff_prefix.mp hword
        refine ⟨back, hback.symm, ?_⟩
        rw [hback, List.tail_cons, ← beforeLast?_eq_none_iff hw]
        exact hrest
  · rintro ⟨back, rfl, hlast⟩
    exact beforeLast?_append hw hlast

end Word

/-! ## Slashes at the end -/

/-- The mark that stands between a root and the name of a service. -/
def serviceMark : List Char := ['/', 'a', 'p', 'i', '/']

/-- The mark without the slash at its end. -/
def bareMark : List Char := ['/', 'a', 'p', 'i']

/-- Without the slashes at the end. -/
def dropSlashes (cs : List Char) : List Char := cs.rdropWhile (· == '/')

theorem toList_rootOf (u : String) :
    (rootOf u).toList = dropSlashes ((beforeLast? serviceMark u.toList).getD u.toList) :=
  String.toList_ofList

/-- What ends in no slash keeps its place when slashes are dropped further on. -/
theorem prefix_dropSlashes_append {cs : List Char} (h : dropSlashes cs = cs) (ds : List Char) :
    cs <+: dropSlashes (cs ++ ds) := by
  induction ds using List.reverseRecOn with
  | nil =>
    rewrite [List.append_nil, h]
    exact List.prefix_refl cs
  | append_singleton ds d ih =>
    rw [← List.append_assoc]
    unfold dropSlashes at *
    rw [List.rdropWhile_concat]
    split
    · exact ih
    · rw [List.append_assoc]
      exact List.prefix_append _ _

theorem dropSlashes_bareMark (cs : List Char) :
    dropSlashes (cs ++ bareMark) = cs ++ bareMark := by
  have h : cs ++ bareMark = cs ++ ['/', 'a', 'p'] ++ ['i'] := by simp [bareMark]
  unfold dropSlashes
  rw [h, List.rdropWhile_concat_neg _ _ _ (by decide)]

/-- A slash completes the mark of a service only behind its other characters. -/
theorem beforeLast?_slash {cs : List Char} (h : ¬ bareMark <:+ cs) :
    beforeLast? serviceMark (cs ++ ['/']) = beforeLast? serviceMark cs := by
  induction cs with
  | nil => decide
  | cons c cs ih =>
    have hmark : serviceMark ≠ c :: cs ++ ['/'] := by
      intro heq
      have hcs : bareMark ++ ['/'] = c :: cs ++ ['/'] := heq
      exact h (List.append_cancel_right hcs ▸ List.suffix_refl _)
    have hprefix :
        serviceMark.isPrefixOf (c :: cs ++ ['/']) = serviceMark.isPrefixOf (c :: cs) := by
      rw [Bool.eq_iff_iff, List.isPrefixOf_iff_prefix, List.isPrefixOf_iff_prefix,
        List.prefix_concat_iff]
      exact or_iff_right hmark
    rw [List.cons_append, beforeLast?, ih fun hs => h (hs.trans (List.suffix_cons c cs)),
      beforeLast?]
    rw [← List.cons_append, hprefix]

/-- A mark that is found in an address that ends in the bare mark stands wholly before that end. -/
theorem prefix_of_mark {cs front back : List Char}
    (h : cs ++ bareMark = front ++ serviceMark ++ back) : front ++ bareMark <+: cs := by
  rw [List.append_assoc, List.append_eq_append_iff] at h
  rcases h with ⟨t, -, ht⟩ | ⟨t, rfl, ht⟩
  · -- The end is too short to hold a whole mark.
    have hlength := congrArg List.length ht
    have hbare : bareMark.length = 4 := rfl
    have hservice : serviceMark.length = 5 := rfl
    rw [List.length_append, List.length_append, hbare, hservice] at hlength
    omega
  · rw [List.prefix_append_right_inj]
    match t with
    | [] | [_] | [_, _] | [_, _, _] => simp [serviceMark, bareMark] at ht
    | a :: b :: c :: d :: t =>
      simp only [serviceMark, List.cons_append, List.cons.injEq] at ht
      obtain ⟨rfl, rfl, rfl, rfl, -⟩ := ht
      exact List.prefix_append bareMark t

/-- With a slash behind it, an address that ends in the bare mark has another root. -/
theorem dropSlashes_ne (cs : List Char) :
    dropSlashes cs ≠
      dropSlashes ((beforeLast? serviceMark (cs ++ bareMark)).getD (cs ++ bareMark)) := by
  have hshort (ds : List Char) : (dropSlashes ds).length ≤ ds.length :=
    (List.rdropWhile_prefix _ _).length_le
  have hmark : bareMark.length = 4 := rfl
  intro h
  have hlength := congrArg List.length h
  cases hlast : beforeLast? serviceMark (cs ++ bareMark) with
  | none =>
    rw [hlast, Option.getD_none, dropSlashes_bareMark, List.length_append] at hlength
    have := hshort cs
    omega
  | some front =>
    obtain ⟨back, hback, -⟩ := (beforeLast?_eq_some_iff (by decide)).mp hlast
    obtain ⟨t, rfl⟩ := prefix_of_mark hback
    have hkept := (prefix_dropSlashes_append (dropSlashes_bareMark front) t).length_le
    rw [hlast, Option.getD_some] at hlength
    rw [List.length_append] at hkept
    have := hshort front
    omega

/-- **Slashes behind an address.** A slash behind an address changes its root iff the address ends
    in `/api`. -/
theorem rootOf_slash_iff (u : String) :
    rootOf (u ++ "/") = rootOf u ↔ ¬ bareMark <:+ u.toList := by
  rw [← String.toList_inj, toList_rootOf, toList_rootOf, String.toList_append]
  have hslash : "/".toList = ['/'] := rfl
  rw [hslash]
  constructor
  · rintro h ⟨cs, hcs⟩
    have hfront : beforeLast? serviceMark (cs ++ bareMark ++ ['/']) = some cs := by
      have hmark : cs ++ bareMark ++ ['/'] = cs ++ serviceMark ++ [] := by
        simp [bareMark, serviceMark]
      rw [hmark]
      exact beforeLast?_append (by decide) (by decide)
    rw [← hcs, hfront] at h
    exact dropSlashes_ne cs h
  · intro h
    rw [beforeLast?_slash h]
    cases beforeLast? serviceMark u.toList with
    | some front => rfl
    | none => exact List.rdropWhile_concat_pos _ _ _ rfl

/-! ## The address of requests -/

theorem beforeLast?_slashes (n : Nat) :
    beforeLast? serviceMark (List.replicate n '/') = none := by
  induction n with
  | zero => rfl
  | succ n ih =>
    rw [List.replicate_succ, beforeLast?, ih]
    cases n with
    | zero => decide
    | succ n => exact if_neg (by simp [serviceMark, List.replicate_succ])

/-- The address that requests go to, with slashes behind it or without, has the root that it was
    made of. -/
theorem rootOf_url {e : Endpoint} (h : dropSlashes e.base.toList = e.base.toList) (n : Nat) :
    rootOf (e.url ++ String.ofList (List.replicate n '/')) = e.base := by
  have hlast : ¬ serviceMark <:+:
      (serviceMark ++ ("embeddings".toList ++ List.replicate n '/')).tail := by
    have hslashes := beforeLast?_slashes n
    rw [← beforeLast?_eq_none_iff (by decide)]
    unfold serviceMark at hslashes ⊢
    simp [beforeLast?, hslashes]
  have hurl : (e.url ++ String.ofList (List.replicate n '/')).toList =
      e.base.toList ++ serviceMark ++ ("embeddings".toList ++ List.replicate n '/') := by
    simp [url, serviceMark]
  rw [← String.toList_inj, toList_rootOf, hurl, beforeLast?_append (by decide) hlast]
  exact h

theorem dropSlashes_base (u model : String) (connect read : Float) :
    dropSlashes (ofUrl u model connect read).base.toList =
      (ofUrl u model connect read).base.toList := by
  show dropSlashes (rootOf u).toList = (rootOf u).toList
  rw [toList_rootOf]
  exact List.rdropWhile_idempotent _ _

/-- **Spellings of an address.** A client that is given an address with a slash behind it sends its
    requests to the same place, unless the address ends in `/api`; then it sends them to another.
    And a client that is given the address that requests are sent to, with any number of slashes
    behind it, sends them there too. -/
theorem url_spelling (u model : String) (connect read : Float) :
    ((ofUrl (u ++ "/") model connect read).url = (ofUrl u model connect read).url ↔
      ¬ bareMark <:+ u.toList) ∧
    ∀ n, (ofUrl ((ofUrl u model connect read).url ++ String.ofList (List.replicate n '/'))
      model connect read).url = (ofUrl u model connect read).url := by
  constructor
  · rw [← rootOf_slash_iff]
    show rootOf (u ++ "/") ++ "/api/embeddings" = rootOf u ++ "/api/embeddings" ↔ _
    exact String.append_left_inj _
  · intro n
    show rootOf _ ++ "/api/embeddings" = _
    rw [rootOf_url (dropSlashes_base u model connect read)]
    rfl

/-- An address for which a slash matters: without it requests go to `/api/api/embeddings`. -/
theorem url_bareService :
    (ofUrl ("http://localhost:11434/api" ++ "/") "all-minilm" 10 120).url ≠
      (ofUrl "http://localhost:11434/api" "all-minilm" 10 120).url := by
  decide +kernel

end SourceAtlas.Endpoint
