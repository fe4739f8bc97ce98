import Mathlib.Control.Lawful
import Mathlib.Data.List.TakeWhile
import Mathlib.Logic.Function.Basic
import SourceAtlas.Proofs.Text.Lower
import SourceAtlas.Settings.Basic

/-!
# Settings that are lists

A setting that is a list can be given in three ways: by its variable and by a text of a file, with
commas between the items, and by a list of a file. Blanks around items and blank items do not count,
so splitting a text undoes whatever way its items were joined, and all three ways come to the same.

Results:
* `splitList_of_spells`: the items of a text are those that it was made from.
* `resolve_of_listed`: a list that is given changes the setting that it is given for, and no other.
* `resolve_listed`: the three ways of giving a list come to the same.
-/

namespace SourceAtlas

open Text

/-! ## Items in texts -/

/-- A text that can be an item of a list: it is not empty, no comma is in it, and it neither begins
    nor ends with a blank. -/
structure IsItem (s : String) : Prop where
  nonempty : s ≠ ""
  noComma : ',' ∉ s.toList
  begins : ∀ c ∈ s.toList.head?, isBlank c = false
  ends : ∀ c ∈ s.toList.getLast?, isBlank c = false

/-- Parts that hold items in their order: each part is an item between blanks, or blank itself. -/
inductive Holding : List String → List (List Char) → Prop
  | nil : Holding [] []
  | blank {items : List String} {parts : List (List Char)} {b : List Char} :
      (∀ c ∈ b, isBlank c) → Holding items parts → Holding items (b :: parts)
  | item {items : List String} {parts : List (List Char)} {before after : List Char} {s : String} :
      (∀ c ∈ before, isBlank c) → (∀ c ∈ after, isBlank c) → Holding items parts →
      Holding (s :: items) ((before ++ s.toList ++ after) :: parts)

/-- The text puts commas between parts that hold the items. -/
def Spells (text : String) (items : List String) : Prop :=
  ∃ parts, Holding items parts ∧ text = String.ofList (List.intercalate [','] parts)

theorem splitAt_eq_splitOn (sep : Char) (cs : List Char) : splitAt sep cs = cs.splitOn sep := by
  induction cs with
  | nil => rfl
  | cons c cs ih =>
    have hne := List.splitOn_ne_nil sep cs
    rw [splitAt, ih, List.splitOn_cons_eq_if_modifyHead]
    cases hs : cs.splitOn sep with
    | nil => exact absurd hs hne
    | cons part parts => rfl

theorem isBlank_comma : isBlank ',' = false := by decide

theorem trim_of_blank {cs : List Char} (h : ∀ c ∈ cs, isBlank c) : trim cs = [] := by
  unfold trim
  rw [List.dropWhile_eq_nil_iff.mpr h]
  rfl

theorem dropWhile_blank_append {before cs : List Char} (hbefore : ∀ c ∈ before, isBlank c)
    (hcs : ∀ c ∈ cs.head?, isBlank c = false) : (before ++ cs).dropWhile isBlank = cs := by
  rw [List.dropWhile_append_of_pos hbefore]
  cases cs with
  | nil => rfl
  | cons c cs => rw [List.dropWhile_cons_of_neg (by simp [hcs c rfl])]

/-- Trimming takes away the blanks around an item, and nothing of the item. -/
theorem trim_padded {s : String} (hs : IsItem s) {before after : List Char}
    (hbefore : ∀ c ∈ before, isBlank c) (hafter : ∀ c ∈ after, isBlank c) :
    trim (before ++ s.toList ++ after) = s.toList := by
  have hne : s.toList ≠ [] := by simpa using hs.nonempty
  have hfront : (before ++ s.toList ++ after).dropWhile isBlank = s.toList ++ after := by
    rw [List.append_assoc]
    apply dropWhile_blank_append hbefore
    rw [List.head?_append_of_ne_nil _ hne]
    exact hs.begins
  have hback : (after.reverse ++ s.toList.reverse).dropWhile isBlank = s.toList.reverse := by
    apply dropWhile_blank_append
    · simpa using hafter
    · rw [List.head?_reverse]
      exact hs.ends
  unfold trim
  rw [hfront, List.reverse_append, hback, List.reverse_reverse]

section Holding

variable {items : List String} {parts : List (List Char)}

/-- No part has a comma in it. -/
theorem Holding.noComma (h : Holding items parts) (hitems : ∀ s ∈ items, IsItem s) :
    ∀ p ∈ parts, ',' ∉ p := by
  have hblank {b : List Char} (hb : ∀ c ∈ b, isBlank c) : ',' ∉ b := by
    intro hmem
    have := hb _ hmem
    rw [isBlank_comma] at this
    cases this
  induction h with
  | nil => simp
  | blank hb _ ih => exact List.forall_mem_cons.mpr ⟨hblank hb, ih hitems⟩
  | @item items parts before after s hbefore hafter _ ih =>
    rw [List.forall_mem_cons] at hitems
    refine List.forall_mem_cons.mpr ⟨?_, ih hitems.2⟩
    simp only [List.mem_append, not_or]
    exact ⟨⟨hblank hbefore, hitems.1.noComma⟩, hblank hafter⟩

/-- The items of parts are what is left of them without blanks. -/
theorem Holding.items_eq (h : Holding items parts) (hitems : ∀ s ∈ items, IsItem s) :
    ((parts.map trim).filter (!·.isEmpty)).map String.ofList = items := by
  induction h with
  | nil => rfl
  | blank hb _ ih =>
    rw [List.map_cons, trim_of_blank hb]
    exact ih hitems
  | @item items parts before after s hbefore hafter _ ih =>
    rw [List.forall_mem_cons] at hitems
    have hne : s.toList.isEmpty = false := by simpa using hitems.1.nonempty
    rw [List.map_cons, trim_padded hitems.1 hbefore hafter, List.filter_cons_of_pos (by simp [hne]),
      List.map_cons, String.ofList_toList, ih hitems.2]

end Holding

/-- Splitting a text undoes whatever way its items were joined. -/
theorem splitList_of_spells {text : String} {items : List String} (h : Spells text items)
    (hitems : ∀ s ∈ items, IsItem s) : splitList text = items := by
  obtain ⟨parts, hparts, rfl⟩ := h
  unfold splitList
  rw [splitAt_eq_splitOn, String.toList_ofList]
  by_cases hne : parts = []
  · -- Splitting no characters leaves one part, which is blank.
    subst hne
    cases hparts
    rfl
  · rw [List.splitOn_intercalate ',' (hparts.noComma hitems) hne]
    exact hparts.items_eq hitems

/-! ## Lists among the settings -/

namespace Settings

/-- The settings that are lists. -/
inductive Listed where
  | extensions
  | ignoredDirs
  | ignoredNames

namespace Listed

/-- The variable that a list is taken from. -/
def variableName : Listed → String
  | extensions => "CODEBASE_CONTEXT_EXTENSIONS"
  | ignoredDirs => "CODEBASE_CONTEXT_IGNORE_DIRS"
  | ignoredNames => "CODEBASE_CONTEXT_IGNORED_NAMES"

/-- What a file calls a list. -/
def key : Listed → String
  | extensions => "code_extensions"
  | ignoredDirs => "ignore_dirs"
  | ignoredNames => "ignored_names"

/-- A dot in front of a text that has none there. -/
def dotted (s : String) : String := if s.toList.head? = some '.' then s else "." ++ s

/-- Settings with the items of a list: extensions in lower case and with a dot in front, names as
    they are. -/
def put (l : Listed) (items : List String) (s : Settings) : Settings :=
  match l with
  | extensions => { s with extensions := items.map fun e => dotted (lower e) }
  | ignoredDirs => { s with ignoredDirs := items }
  | ignoredNames => { s with ignoredNames := items }

theorem dotted_lower (e : String) : dotted (lower e) = normalExtension e := by
  unfold dotted normalExtension
  simp only [← startsWith_dot_iff, startsWith_dot_lower]

end Listed

/-- Values of a file with one more under a key, in place of what was there. -/
def withValue (es : List (Value × Value)) (key : String) (v : Value) : Value :=
  .map (es ++ [(.text key, v)])

theorem get?_withValue (es : List (Value × Value)) (key key' : String) (v : Value) :
    (withValue es key v).get? key' =
      if key == key' then some v else (Value.map es).get? key' := by
  unfold withValue Value.get?
  dsimp only
  rw [List.foldl_append]
  rfl

theorem mapM_castText (items : List String) :
    (items.map Value.text).mapM Value.castText = .ok items := by
  rw [List.mapM_map]
  exact (List.mapM_pure (f := id)).trans (congrArg pure (List.map_id items))

section Resolve

variable {α : Type} {env env' : Environment} {data data' : Value} {name key : String}

/-- A single setting depends on its variable and its value alone. -/
theorem resolveOne_congr (cast : Value → Except CastError α) (default : α)
    (hname : env name = env' name) (hkey : data.get? key = data'.get? key) :
    resolveOne cast env data name key default = resolveOne cast env' data' name key default := by
  unfold resolveOne
  rw [hname, hkey]

/-- A list depends on its variable and its value alone. -/
theorem resolveList_congr (default : List String) (hname : env name = env' name)
    (hkey : data.get? key = data'.get? key) :
    resolveList env data name key default = resolveList env' data' name key default := by
  unfold resolveList
  rw [hname, hkey]

/-- A list that is given changes the setting that it is given for, and no other: let a list come to
    the items in one place, and be absent in another that is like it but for the list. -/
theorem resolve_of_listed {l : Listed} {items : List String}
    (hnames : ∀ name ≠ l.variableName, env name = env' name)
    (hkeys : ∀ key ≠ l.key, data.get? key = data'.get? key)
    (hgiven : ∀ default, resolveList env data l.variableName l.key default = .ok items)
    (habsent : ∀ default, resolveList env' data' l.variableName l.key default = .ok default) :
    resolve env data = l.put items <$> resolve env' data' := by
  have hone {α : Type} (cast : Value → Except CastError α) (name key : String) (default : α)
      (hname : name ≠ l.variableName) (hkey : key ≠ l.key) :
      resolveOne cast env data name key default = resolveOne cast env' data' name key default :=
    resolveOne_congr cast default (hnames name hname) (hkeys key hkey)
  have hother (name key : String) (default : List String)
      (hname : name ≠ l.variableName) (hkey : key ≠ l.key) :
      resolveList env data name key default = resolveList env' data' name key default :=
    resolveList_congr default (hnames name hname) (hkeys key hkey)
  have hgiven' : ∀ default, resolveList env data l.variableName l.key default = pure items := hgiven
  have habsent' : ∀ default, resolveList env' data' l.variableName l.key default = pure default :=
    habsent
  unfold resolve
  simp only [map_bind, map_pure]
  cases l <;>
  · dsimp only [Listed.variableName, Listed.key] at hgiven' habsent'
    simp (disch := decide) only [hone, hother, hgiven', habsent', pure_bind, Listed.put,
      Listed.dotted_lower]

end Resolve

/-- Where its variable is not set, a list is what the file says. -/
theorem resolveList_withValue (env : Environment) (es : List (Value × Value)) (name key : String)
    (v : Value) (default : List String) :
    resolveList (Function.update env name none) (withValue es key v) name key default =
      match v with
      | .list vs => vs.mapM Value.castText
      | .text s => .ok (splitList s)
      | _ => .ok default := by
  unfold resolveList
  rw [Function.update_self, get?_withValue, if_pos (beq_self_eq_true key)]
  cases v <;> rfl

theorem get?_withValue_of_ne (es : List (Value × Value)) {key key' : String} (h : key' ≠ key)
    (v : Value) : (withValue es key v).get? key' = (Value.map es).get? key' := by
  rw [get?_withValue, beq_false_of_ne h.symm, if_neg Bool.false_ne_true]

/-- The settings of an environment and a file that leave a list out, with items in its place. -/
def Listed.given (l : Listed) (env : Environment) (es : List (Value × Value))
    (items : List String) : Except CastError Settings :=
  l.put items <$> resolve (Function.update env l.variableName none) (withValue es l.key .null)

/-- **Three ways to give a list.** Let a text put commas between items, with blanks around them and
    blank items anywhere. Whether the text is the variable of a list or its value in a file, or the
    items are a list in the file: the settings are those without the list, with the items in its
    place, extensions in lower case and with a dot in front. -/
theorem resolve_listed (l : Listed) (env : Environment) (es : List (Value × Value)) {text : String}
    {items : List String} (hitems : ∀ s ∈ items, IsItem s) (htext : Spells text items) :
    resolve (Function.update env l.variableName (some text)) (.map es) = l.given env es items ∧
    resolve (Function.update env l.variableName none) (withValue es l.key (.text text)) =
      l.given env es items ∧
    resolve (Function.update env l.variableName none)
      (withValue es l.key (.list (items.map .text))) = l.given env es items := by
  have hsplit := splitList_of_spells htext hitems
  have habsent := resolveList_withValue env es l.variableName l.key .null
  refine ⟨?_, ?_, ?_⟩
  · refine resolve_of_listed (fun name hname => ?_) (fun key hkey => ?_) (fun default => ?_) habsent
    · rw [Function.update_of_ne hname, Function.update_of_ne hname]
    · rw [get?_withValue_of_ne es hkey]
    · unfold resolveList
      rw [Function.update_self]
      dsimp only
      rw [hsplit]
  · refine resolve_of_listed (fun _ _ => rfl) (fun key hkey => ?_) (fun default => ?_) habsent
    · rw [get?_withValue_of_ne es hkey, get?_withValue_of_ne es hkey]
    · rw [resolveList_withValue]
      dsimp only
      rw [hsplit]
  · refine resolve_of_listed (fun _ _ => rfl) (fun key hkey => ?_) (fun default => ?_) habsent
    · rw [get?_withValue_of_ne es hkey, get?_withValue_of_ne es hkey]
    · rw [resolveList_withValue]
      exact mapM_castText items

/-- A text of two items with blanks around them and blank items beside them. -/
def paddedText : String := ", JS ,,\t.Py"

theorem spells_paddedText : Spells paddedText ["JS", ".Py"] := by
  have hspace : ∀ c ∈ [' '], isBlank c := by simp [isBlank]
  have htab : ∀ c ∈ ['\t'], isBlank c := by simp [isBlank]
  have hnone : ∀ c ∈ ([] : List Char), isBlank c := by simp
  refine ⟨[[], " JS ".toList, [], "\t.Py".toList], ?_, by decide⟩
  exact .blank hnone (.item hspace hspace (.blank hnone (.item htab hnone .nil)))

theorem isItem_paddedText : ∀ s ∈ ["JS", ".Py"], IsItem s := by
  rw [List.forall_mem_cons, List.forall_mem_singleton]
  exact ⟨⟨by decide, by decide, by simp [isBlank], by simp [isBlank]⟩,
    ⟨by decide, by decide, by simp [isBlank], by simp [isBlank]⟩⟩

theorem resolve_listed_padded :
    (∀ s ∈ ["JS", ".Py"], IsItem s) ∧ Spells paddedText ["JS", ".Py"] ∧
    ((resolve (Function.update (fun _ => none) Listed.extensions.variableName (some paddedText))
      (.map [])).map Settings.extensions = .ok [".js", ".py"]) ∧
    ((resolve (Function.update (fun _ => none) Listed.extensions.variableName none)
      (withValue [] Listed.extensions.key (.list [.text "JS", .text ".Py"]))).map
        Settings.extensions = .ok [".js", ".py"]) := by
  obtain ⟨hvariable, -, hlist⟩ :=
    resolve_listed .extensions (fun _ => none) [] isItem_paddedText spells_paddedText
  have hgiven : (Listed.extensions.given (fun _ => none) [] ["JS", ".Py"]).map
      Settings.extensions = .ok [".js", ".py"] := by
    decide +kernel
  exact ⟨isItem_paddedText, spells_paddedText, hvariable ▸ hgiven, hlist ▸ hgiven⟩

end Settings

end SourceAtlas
