import SourceAtlas.Proofs.Text.Decode
import SourceAtlas.Text.Lines

/-!
# Texts of files

A text that was read from a file has no carriage return, and every text without one is read from the
bytes that encode it. So a file that is overwritten with its own text, whatever bytes it had, keeps
that text.

Results:
* `unifyLines_eq_self_iff`: which texts keep their line ends.
* `exists_ofFile_iff`: which texts files have.
* `ofFile_encode_ofFile`: the text of a file is read back from its encoding.
-/

namespace SourceAtlas.Text

theorem carriage_not_mem_unifyLines (cs : List Char) : '\r' ∉ unifyLines cs := by
  induction cs using unifyLines.induct with
  | case1 => exact List.not_mem_nil
  | case2 cs ih =>
    rw [unifyLines, List.mem_cons, not_or]
    exact ⟨by decide, ih⟩
  | case3 c cs hpair ih =>
    rw [unifyLines.eq_3 _ _ hpair, List.mem_cons, not_or]
    refine ⟨?_, ih⟩
    by_cases hc : c = '\r'
    · rw [if_pos (by simpa using hc)]
      decide
    · rw [if_neg (by simpa using hc)]
      exact fun heq => hc heq.symm

theorem unifyLines_of_not_mem {cs : List Char} (h : '\r' ∉ cs) : unifyLines cs = cs := by
  induction cs with
  | nil => rfl
  | cons c cs ih =>
    rw [List.mem_cons, not_or] at h
    have hc : c ≠ '\r' := fun heq => h.1 heq.symm
    rw [unifyLines.eq_3 _ _ (fun cs' heq _ => hc heq), if_neg (by simpa using hc), ih h.2]

/-- Just the texts without carriage returns keep their line ends. -/
theorem unifyLines_eq_self_iff (cs : List Char) : unifyLines cs = cs ↔ '\r' ∉ cs := by
  refine ⟨fun h => ?_, unifyLines_of_not_mem⟩
  rw [← h]
  exact carriage_not_mem_unifyLines cs

theorem carriage_not_mem_ofFile (bytes : List UInt8) : '\r' ∉ (ofFile bytes).toList := by
  rw [ofFile, String.toList_ofList]
  exact carriage_not_mem_unifyLines _

/-- A text without carriage returns is read from its encoding. -/
theorem ofFile_encode {text : String} (h : '\r' ∉ text.toList) :
    ofFile (Utf8.encode text.toList) = text := by
  rw [ofFile, Utf8.decode_encode, unifyLines_of_not_mem h, String.ofList_toList]

/-- The texts that files have are those without carriage returns. -/
theorem exists_ofFile_iff (text : String) :
    (∃ bytes, ofFile bytes = text) ↔ '\r' ∉ text.toList := by
  refine ⟨?_, fun h => ⟨_, ofFile_encode h⟩⟩
  rintro ⟨bytes, rfl⟩
  exact carriage_not_mem_ofFile bytes

/-- The text of a file is read back from its encoding, whatever bytes the file had. -/
theorem ofFile_encode_ofFile (bytes : List UInt8) :
    ofFile (Utf8.encode (ofFile bytes).toList) = ofFile bytes :=
  ofFile_encode (carriage_not_mem_ofFile bytes)

end SourceAtlas.Text
