import ApiCommand.Proofs.Json.PointerText
import ApiCommand.Proofs.Json.ReadingBack
import ApiCommand.Proofs.Text.Split
import Mathlib.Data.List.Basic

/-!
# Which texts are pointers

A text is a pointer exactly if it is empty or starts with a slash, and every `~` in it starts an
escape; a `#` may stand in front. Such a text is the escaped tokens again that it is read as
(`parse?_eq_some_iff`), so without the `#` there is one text for every list of tokens
(`bijective_parse?`).
-/

namespace ApiCommand

namespace Text

/-- A text is replaced character by character if the part is a single one. -/
theorem replace_singleton (c : Char) (image cs : List Char) :
    replace [c] image cs = cs.flatMap fun d => if d = c then image else [d] := by
  induction cs with
  | nil => rfl
  | cons d cs ih =>
    rw [List.flatMap_cons, ← ih]
    by_cases hd : d = c
    · subst hd
      rw [if_pos rfl]
      exact replace_append_of_ne_nil (List.cons_ne_nil d []) cs
    · rw [if_neg hd, replace_cons_of_not_isPrefix (by simpa using Ne.symm hd)]
      rfl

/-- With the separator in front of each of them, the pieces make the text. -/
theorem flatMap_splitOn (sep : Char) (cs : List Char) :
    ((cs.splitOn sep).flatMap fun piece => sep :: piece) = sep :: cs := by
  induction cs with
  | nil => rfl
  | cons c cs ih =>
    obtain ⟨first, rest, hsplit⟩ := List.exists_cons_of_ne_nil (List.splitOn_ne_nil sep cs)
    rw [hsplit, List.flatMap_cons, List.cons_append, List.cons_inj_right] at ih
    rw [List.splitOn_cons_eq_if_modifyHead, hsplit]
    -- A separator starts a piece, and any other character belongs to the first one.
    split
    next heq => simp [ih, eq_of_beq heq]
    next => simp [ih]

end Text

namespace Pointer

/-! ## Escapes -/

/-- Escaping is replacing every `~` and then every `/`. -/
theorem escapeChars_eq_replace (cs : List Char) :
    escapeChars cs = Text.replace ['/'] ['~', '1'] (Text.replace ['~'] ['~', '0'] cs) := by
  rw [Text.replace_singleton, Text.replace_singleton, List.flatMap_assoc]
  refine List.flatMap_congr fun c _ => ?_
  by_cases htilde : c = '~'
  · simp [htilde]
  · by_cases hslash : c = '/' <;> simp [htilde, hslash]

/-- Every `~` in the text is followed by `0` or `1`. -/
def Escaped (cs : List Char) : Prop :=
  ∀ i, cs[i]? = some '~' → cs[i + 1]? = some '0' ∨ cs[i + 1]? = some '1'

theorem escaped_nil : Escaped [] := by
  intro i h
  cases h

/-- A `~` is followed by a digit, and the text behind it is checked in the same way. -/
theorem escaped_cons {c : Char} {cs : List Char} :
    Escaped (c :: cs) ↔
      (c = '~' → cs.head? = some '0' ∨ cs.head? = some '1') ∧ Escaped cs := by
  rw [List.head?_eq_getElem?]
  constructor
  · intro h
    exact ⟨fun hc => h 0 (congrArg some hc), fun i hi => h (i + 1) hi⟩
  · rintro ⟨hfirst, hrest⟩ (_ | i) hi
    · exact hfirst (Option.some.inj hi)
    · exact hrest i hi

/-- A slash does not belong to an escape. -/
theorem escaped_append_slash {cs rest : List Char} :
    Escaped (cs ++ '/' :: rest) ↔ Escaped cs ∧ Escaped rest := by
  induction cs with
  | nil => simp [escaped_cons, escaped_nil]
  | cons c cs ih =>
    have hhead : ∀ d ∈ ['0', '1'],
        (cs ++ '/' :: rest).head? = some d ↔ cs.head? = some d := by
      intro d hd
      cases cs with
      | nil => simpa using fun heq => by subst heq; simp at hd
      | cons => rfl
    rw [List.cons_append, escaped_cons, escaped_cons, ih, hhead '0' (by simp),
      hhead '1' (by simp), and_assoc]

/-- A token can be read exactly if it is escaped well. -/
theorem isSome_unescape?_iff (cs : List Char) : (unescape? cs).isSome ↔ Escaped cs := by
  induction cs using unescape?.induct with
  | case1 => simp [unescape?, escaped_nil]
  | case2 rest ih => simp [unescape?, escaped_cons, ih]
  | case3 rest ih => simp [unescape?, escaped_cons, ih]
  | case4 rest hzero hone =>
    -- This `~` starts no escape.
    have hhead : ¬(rest.head? = some '0' ∨ rest.head? = some '1') := by
      rintro (h | h) <;> obtain ⟨rest, rfl⟩ := List.head?_eq_some_iff.mp h
      · exact hzero rest rfl rfl
      · exact hone rest rfl rfl
    simp [unescape?, escaped_cons, hhead]
  | case5 c rest hzero hone hc ih => simp [unescape?, escaped_cons, hc, ih]

/-- A token that was read is escaped into what was read. -/
theorem escapeChars_of_unescape? {cs token : List Char} (hslash : '/' ∉ cs)
    (h : unescape? cs = some token) : escapeChars token = cs := by
  induction cs using unescape?.induct generalizing token with
  | case1 =>
    cases h
    rfl
  | case2 rest ih =>
    obtain ⟨token, htoken, rfl⟩ := Option.map_eq_some_iff.mp h
    have hrest : '/' ∉ rest := fun hmem => hslash (by simp [hmem])
    rw [escapeChars_cons, if_pos rfl, ih hrest htoken]
    rfl
  | case3 rest ih =>
    obtain ⟨token, htoken, rfl⟩ := Option.map_eq_some_iff.mp h
    have hrest : '/' ∉ rest := fun hmem => hslash (by simp [hmem])
    rw [escapeChars_cons, if_neg (by decide), if_pos rfl, ih hrest htoken]
    rfl
  | case4 => simp [unescape?] at h
  | case5 c rest _ _ hc ih =>
    simp only [unescape?, hc, if_false] at h
    obtain ⟨token, htoken, rfl⟩ := Option.map_eq_some_iff.mp h
    rw [List.mem_cons, not_or] at hslash
    rw [escapeChars_cons, if_neg hc, if_neg (Ne.symm hslash.1), ih hslash.2 htoken]
    rfl

/-! ## All tokens -/

/-- Parts can be unescaped if every `~` in them is followed by `0` or `1`. -/
theorem isSome_unescapeAll?_iff (parts : List (List Char)) :
    (unescapeAll? parts).isSome ↔ Escaped (parts.flatMap fun part => '/' :: part) := by
  induction parts with
  | nil => simp [unescapeAll?, escaped_nil]
  | cons part parts ih =>
    have hstep : (unescapeAll? (part :: parts)).isSome ↔
        (unescape? part).isSome ∧ (unescapeAll? parts).isSome := by
      rw [unescapeAll?]
      cases unescape? part <;> cases unescapeAll? parts <;> simp
    rw [hstep, isSome_unescape?_iff, ih]
    -- The next slash, if there is one, ends the last escape of this token.
    cases parts with
    | nil => simp [escaped_cons, escaped_nil]
    | cons next parts =>
      simp only [List.flatMap_cons, List.cons_append, escaped_cons, escaped_append_slash]
      simp

/-- Escaping what was unescaped gets the same text back. -/
theorem flatMap_of_unescapeAll? {parts : List (List Char)} {tokens : List String}
    (hslash : ∀ part ∈ parts, '/' ∉ part) (h : unescapeAll? parts = some tokens) :
    (tokens.flatMap fun token => '/' :: escapeChars token.toList) =
      parts.flatMap fun part => '/' :: part := by
  induction parts generalizing tokens with
  | nil =>
    cases h
    rfl
  | cons part parts ih =>
    obtain ⟨hpart, hparts⟩ := List.forall_mem_cons.mp hslash
    simp only [unescapeAll?, Option.bind_eq_bind, Option.bind_eq_some_iff, Option.some.injEq] at h
    obtain ⟨token, htoken, tokens, htokens, rfl⟩ := h
    rw [List.flatMap_cons, List.flatMap_cons, ih hparts htokens, String.toList_ofList,
      escapeChars_of_unescape? hpart htoken]

/-! ## Texts of pointers -/

/-- The text is empty or starts with a slash, and every `~` in it is followed by `0` or `1`. -/
def IsText (s : String) : Prop := (s = "" ∨ s.toList.head? = some '/') ∧ Escaped s.toList

/-- The text of a pointer has each token behind a slash, escaped. -/
theorem toList_text (tokens : List String) :
    (text tokens).toList = tokens.flatMap fun token => '/' :: escapeChars token.toList :=
  String.toList_ofList

/-- The text of a pointer is a slash and the escaped token for each of them. -/
theorem text_eq_join (tokens : List String) :
    text tokens = String.join (tokens.map fun token => "/" ++ escape token) := by
  apply String.toList_inj.mp
  rw [toList_text, String.toList_join, List.flatMap_map]
  refine List.flatMap_congr fun token _ => ?_
  simp [escape]

/-- The text of a pointer has no `#` in front. -/
theorem withoutHash_text (tokens : List String) : withoutHash (text tokens) = text tokens := by
  rw [withoutHash, toList_text]
  cases tokens <;> simp

theorem withoutHash_hash_append (s : String) : withoutHash ("#" ++ s) = s := by
  simp [withoutHash]

/-- A text has tokens if it is that of a pointer. -/
theorem isSome_tokensOf?_iff (s : String) : (tokensOf? s.toList).isSome ↔ IsText s := by
  rw [IsText, ← String.toList_eq_nil_iff]
  cases s.toList with
  | nil => simp [tokensOf?, escaped_nil]
  | cons c rest =>
    by_cases hslash : c = '/'
    · subst hslash
      rw [tokensOf?, isSome_unescapeAll?_iff, Text.flatMap_splitOn]
      simp
    · simp [tokensOf?, hslash]

/-- The tokens of a text have this text. -/
theorem text_of_tokensOf? {s : String} {tokens : List String}
    (h : tokensOf? s.toList = some tokens) : text tokens = s := by
  apply String.toList_inj.mp
  rw [toList_text]
  cases hs : s.toList with
  | nil =>
    rw [hs] at h
    cases h
    rfl
  | cons c rest =>
    rw [hs] at h
    by_cases hslash : c = '/'
    · subst hslash
      have hparts : ∀ part ∈ rest.splitOn '/', '/' ∉ part :=
        fun part hpart => (Text.sublist_of_mem_splitOn hpart).2
      rw [flatMap_of_unescapeAll? hparts h, Text.flatMap_splitOn]
    · simp [tokensOf?, hslash] at h

/-- A text is read as certain tokens exactly if it is their text, apart from a `#` in front. -/
theorem parse?_eq_some_iff {s : String} {tokens : List String} :
    parse? s = some tokens ↔ text tokens = withoutHash s := by
  constructor
  · intro h
    rw [parse?_eq_tokensOf?] at h
    exact text_of_tokensOf? h
  · intro h
    rw [parse?_eq_tokensOf?, ← h, ← withoutHash_text tokens, ← parse?_eq_tokensOf?, parse?_text]

/-- The texts of pointers and the lists of tokens correspond to each other. The text of a list of
tokens has a slash and the escaped token for each of them, where escaping replaces every `~` and
then every `/`; it is read as these tokens, also with a `#` in front. A text can be read exactly if
it is empty or starts with a slash, and every `~` in it starts an escape, again apart from one `#`;
and then it is the text of the tokens. -/
theorem bijective_parse? :
    (∀ token, (escape token).toList =
      Text.replace ['/'] ['~', '1'] (Text.replace ['~'] ['~', '0'] token.toList)) ∧
    (∀ tokens, parse? (String.join (tokens.map fun token => "/" ++ escape token)) = some tokens ∧
      parse? ("#" ++ String.join (tokens.map fun token => "/" ++ escape token)) = some tokens) ∧
    (∀ s, (∃ tokens, parse? s = some tokens) ↔ IsText (withoutHash s)) ∧
    (∀ s tokens, parse? s = some tokens ↔
      String.join (tokens.map fun token => "/" ++ escape token) = withoutHash s) ∧
    ∀ tokens, ∃! s, IsText s ∧ parse? s = some tokens := by
  simp only [← text_eq_join, ← parse?_eq_some_iff, implies_true, true_and]
  have hsome : ∀ s, (∃ tokens, parse? s = some tokens) ↔ IsText (withoutHash s) := by
    intro s
    rw [← Option.isSome_iff_exists, parse?_eq_tokensOf?, isSome_tokensOf?_iff]
  refine ⟨fun token => ?_, fun tokens => ⟨parse?_text tokens, ?_⟩, hsome, fun tokens => ?_⟩
  · rw [escape, String.toList_ofList, escapeChars_eq_replace]
  · rw [parse?_eq_some_iff, withoutHash_hash_append]
  · refine ⟨text tokens, ⟨?_, parse?_text tokens⟩, ?_⟩
    · rw [← withoutHash_text, ← hsome]
      exact ⟨tokens, parse?_text tokens⟩
    · -- A text of this form has no `#` in front that could be left out.
      rintro s ⟨⟨hstart, -⟩, hs⟩
      rw [parse?_eq_some_iff] at hs
      rw [hs, withoutHash, if_neg]
      rcases hstart with rfl | hstart
      · simp
      · simp [hstart]

end Pointer

end ApiCommand
