import ApiCommand.Unicode.WhiteSpace
import Mathlib.Data.List.DropRight

/-!
# White space at the ends

Trimming leaves a text alone if and only if there is no white space at its ends
(`trim_eq_self_iff`). What is not white space is never dropped.
-/

namespace ApiCommand.Unicode

variable {cs : List Char}

/-- Nothing is trimmed in front of a text that does not start with white space. -/
theorem trimStart_eq_self_iff : trimStart cs = cs ↔ ∀ c ∈ cs.head?, isWhiteSpace c = false := by
  cases cs with
  | nil => simp [trimStart]
  | cons c cs => simp [trimStart, List.dropWhile_eq_self_iff]

/-- Nothing is trimmed behind a text that does not end with white space. -/
theorem trimEnd_eq_self_iff : trimEnd cs = cs ↔ ∀ c ∈ cs.getLast?, isWhiteSpace c = false := by
  have hreverse : trimEnd cs = cs ↔ trimStart cs.reverse = cs.reverse := by
    rw [trimEnd, trimStart, List.reverse_eq_iff]
  rw [hreverse, trimStart_eq_self_iff, List.head?_reverse]

/-- Trimming only takes characters away. -/
theorem trim_sublist (cs : List Char) : (trim cs).Sublist cs :=
  (List.rdropWhile_prefix _ _).sublist.trans (List.dropWhile_sublist _)

/-- Nothing is dropped if there is no white space at the ends. -/
theorem trim_eq_self_iff :
    trim cs = cs ↔ (∀ c ∈ cs.head?, isWhiteSpace c = false) ∧
      ∀ c ∈ cs.getLast?, isWhiteSpace c = false := by
  rw [← trimStart_eq_self_iff, ← trimEnd_eq_self_iff]
  constructor
  · intro h
    -- Whatever is dropped at the start would be missing in the end.
    have hlength : (trim cs).length ≤ (trimStart cs).length :=
      (List.rdropWhile_prefix _ _).sublist.length_le
    rw [h] at hlength
    have hstart : trimStart cs = cs := (List.dropWhile_sublist _).eq_of_length_le hlength
    exact ⟨hstart, by rw [trim, hstart] at h; exact h⟩
  · rintro ⟨hstart, hend⟩
    rw [trim, hstart, hend]

theorem trim_eq_self (h : ∀ c ∈ cs, isWhiteSpace c = false) : trim cs = cs :=
  trim_eq_self_iff.mpr ⟨fun c hc => h c (List.mem_of_mem_head? hc),
    fun c hc => h c (List.mem_of_getLast? hc)⟩

theorem trim_cons_of_isWhiteSpace {c : Char} (h : isWhiteSpace c) : trim (c :: cs) = trim cs := by
  rw [trim, trim, trimStart, List.dropWhile_cons_of_pos h, ← trimStart]

/-- Trimming does not take other characters away. -/
theorem mem_trimStart {c : Char} (hc : c ∈ cs) (h : isWhiteSpace c = false) : c ∈ trimStart cs := by
  rw [← List.takeWhile_append_dropWhile (p := isWhiteSpace) (l := cs), List.mem_append] at hc
  refine hc.resolve_left fun hspace => ?_
  rw [List.mem_takeWhile_imp hspace] at h
  cases h

/-- A character that is not white space is kept. -/
theorem mem_trim {c : Char} (hc : c ∈ cs) (h : isWhiteSpace c = false) : c ∈ trim cs :=
  List.mem_reverse.mpr (mem_trimStart (List.mem_reverse.mpr (mem_trimStart hc h)) h)

/-- A digit is no white space. -/
theorem isWhiteSpace_of_isDigit {c : Char} (h : c.isDigit) : isWhiteSpace c = false := by
  have hcode : 48 ≤ c.toNat ∧ c.toNat ≤ 57 := by
    simpa [Char.isDigit, UInt32.le_iff_toNat_le] using h
  simp [isWhiteSpace, whiteSpaceRuns, inRuns, CodeRun.contains]
  omega

theorem isWhiteSpace_bracket : isWhiteSpace '[' = false := by decide

theorem isWhiteSpace_brace : isWhiteSpace '{' = false := by decide

end ApiCommand.Unicode
