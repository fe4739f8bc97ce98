import SourceAtlas.Proofs.Settings.Items

/-!
# Settings that were resolved

Resolved settings can be written to a file as they are: texts, numbers, integers and lists of texts.
Resolved from that file they are the same settings again. An empty text or list does not count as
absent, the floor of the worker count and the form of extensions are reached at once, and every cast
leaves values of its own kind as they are.

Results:
* `normalExtension_normalExtension`: an extension in its normal form stays as it is.
* `resolved_of_resolve`, `resolve_toValue`: what all resolved settings have in common, and that this
  is enough for settings to be resolved to themselves.
* `resolve_resolved`: resolved settings are resolved to themselves.
-/

namespace SourceAtlas.Settings

open Text

/-! ## Extensions -/

theorem isLower_dot : IsLower '.' :=
  ⟨lowerChar_eq_dot_iff.mpr rfl, by decide, by decide⟩

theorem startsWith_dot_normalExtension (e : String) : (normalExtension e).startsWith "." := by
  unfold normalExtension
  split
  · rename_i h
    rwa [startsWith_dot_lower]
  · rw [startsWith_dot_iff, String.toList_append]
    rfl

/-- All of an extension in its normal form is in lower case. -/
theorem lower_normalExtension (e : String) : lower (normalExtension e) = normalExtension e := by
  unfold normalExtension
  split
  · exact lower_lower e
  · apply lower_eq_self
    intro c hc
    rw [String.toList_append] at hc
    rcases List.mem_append.mp hc with hc | hc
    · rw [List.mem_singleton.mp hc]
      exact isLower_dot
    · exact isLower_of_mem_lower hc

/-- An extension in its normal form stays as it is. -/
theorem normalExtension_normalExtension (e : String) :
    normalExtension (normalExtension e) = normalExtension e := by
  rw [normalExtension, if_pos (startsWith_dot_normalExtension e), lower_normalExtension]

/-! ## What resolved settings have in common -/

/-- What all resolved settings have in common: there is a worker, and extensions are in their normal
    form. -/
structure Resolved (s : Settings) : Prop where
  workers : 1 ≤ s.maxWorkers
  normal : s.extensions.map normalExtension = s.extensions

/-- A result, where there is one, has a property. -/
def Yields {α ε : Type} (P : α → Prop) (x : Except ε α) : Prop := ∀ a, x = .ok a → P a

theorem Yields.bind {α β ε : Type} {P : β → Prop} {x : Except ε α} {f : α → Except ε β}
    (h : ∀ a, Yields P (f a)) : Yields P (x >>= f) := by
  intro b hb
  cases x with
  | error e => cases hb
  | ok a => exact h a b hb

/-- Whatever settings are resolved from, they have this in common. -/
theorem resolved_of_resolve (env : Environment) (data : Value) :
    Yields Resolved (resolve env data) := by
  unfold resolve
  dsimp only
  iterate 12
    apply Yields.bind
    intro
  rintro s ⟨⟩
  refine ⟨Int.le_max_left 1 _, ?_⟩
  rw [List.map_map]
  apply List.map_congr_left
  intro e _
  exact normalExtension_normalExtension e

/-! ## Settings as values -/

/-- Settings as the values of a file. -/
def toValue (s : Settings) : Value :=
  .map [
    (.text "db_path", .text s.storePath),
    (.text "ollama_base_url", .text s.baseUrl),
    (.text "embedding_model", .text s.model),
    (.text "connect_timeout", .float s.connectTimeout),
    (.text "request_timeout", .float s.requestTimeout),
    (.text "max_workers", .int s.maxWorkers),
    (.text "top_k", .int s.topK),
    (.text "min_occurrences", .int s.minOccurrences),
    (.text "log_dir", .text s.logDir),
    (.text "code_extensions", .list (s.extensions.map .text)),
    (.text "ignore_dirs", .list (s.ignoredDirs.map .text)),
    (.text "ignored_names", .list (s.ignoredNames.map .text))]

section Given

variable {α : Type} {env : Environment} {data v : Value} {name key : String}
  (hname : env name = none)

include hname

/-- A value that is given is cast, and no default takes its place. -/
theorem resolveOne_given {cast : Value → Except CastError α} (default : α)
    (hkey : data.get? key = some v) (hv : v ≠ .null) :
    resolveOne cast env data name key default = cast v := by
  unfold resolveOne
  rw [hname, hkey]
  cases v with
  | null => exact absurd rfl hv
  | _ => rfl

theorem resolveOne_text {x : String} (default : String) (hkey : data.get? key = some (.text x)) :
    resolveOne Value.castText env data name key default = .ok x :=
  resolveOne_given hname default hkey nofun

theorem resolveOne_float {x : Float} (default : Float) (hkey : data.get? key = some (.float x)) :
    resolveOne Value.castFloat env data name key default = .ok x :=
  resolveOne_given hname default hkey nofun

theorem resolveOne_int {n : Int} (default : Int) (hkey : data.get? key = some (.int n)) :
    resolveOne Value.castInt env data name key default = .ok n :=
  resolveOne_given hname default hkey nofun

/-- A list of texts that is given is taken as it is, also where it is empty. -/
theorem resolveList_given {items : List String} (default : List String)
    (hkey : data.get? key = some (.list (items.map .text))) :
    resolveList env data name key default = .ok items := by
  unfold resolveList
  rw [hname, hkey]
  exact mapM_castText items

end Given

theorem ok_bind {α β ε : Type} {x : Except ε α} {f : α → Except ε β} {a : α} {r : Except ε β}
    (hx : x = .ok a) (hf : f a = r) : x >>= f = r := by
  rw [hx]
  exact hf

/-- Settings that have what all resolved settings have in common are resolved to themselves. -/
theorem resolve_toValue {env : Environment} (henv : ∀ name ∈ variableNames, env name = none)
    {s : Settings} (h : s.Resolved) : resolve env s.toValue = .ok s := by
  unfold resolve
  dsimp only
  iterate 3 refine ok_bind (resolveOne_text (henv _ (by decide)) _ rfl) ?_
  iterate 2 refine ok_bind (resolveOne_float (henv _ (by decide)) _ rfl) ?_
  iterate 3 refine ok_bind (resolveOne_int (henv _ (by decide)) _ rfl) ?_
  refine ok_bind (resolveOne_text (henv _ (by decide)) _ rfl) ?_
  iterate 3 refine ok_bind (resolveList_given (henv _ (by decide)) _ rfl) ?_
  rw [h.normal, Int.max_eq_right h.workers]
  rfl

/-- **Resolved settings are resolved to themselves.** Let no variable of the environment be set.
    Whatever values settings were resolved from: written to a file as texts, numbers, integers and
    lists of texts, they are resolved to the same settings again. -/
theorem resolve_resolved {env : Environment} (henv : ∀ name ∈ variableNames, env name = none)
    {data : Value} {s : Settings} (h : resolve env data = .ok s) : resolve env s.toValue = .ok s :=
  resolve_toValue henv (resolved_of_resolve env data s h)

/-- Values that are cast, raised to the least worker count, and put into their normal form. -/
def roughValues : Value :=
  .map [(.text "db_path", .text ""), (.text "embedding_model", .bool false),
    (.text "max_workers", .int (-3)), (.text "top_k", .text " 1_0 "),
    (.text "code_extensions", .list [.text "İΣ", .text ""]), (.text "ignore_dirs", .list [])]

theorem resolve_resolved_rough :
    ∃ s, resolve (fun _ => none) roughValues = .ok s ∧
      (s.storePath, s.model, s.maxWorkers, s.extensions) = ("", "False", 1, [".i\u0307ς", "."]) ∧
      resolve (fun _ => none) s.toValue = .ok s := by
  have hrough : (resolve (fun _ => none) roughValues).map (fun s =>
      (s.storePath, s.model, s.maxWorkers, s.extensions)) =
        .ok ("", "False", 1, [".i\u0307ς", "."]) := by
    decide +kernel
  cases h : resolve (fun _ => none) roughValues with
  | error e =>
    rw [h] at hrough
    cases hrough
  | ok s =>
    rw [h] at hrough
    exact ⟨s, rfl, Except.ok.inj hrough, resolve_resolved (fun _ _ => rfl) h⟩

end SourceAtlas.Settings
