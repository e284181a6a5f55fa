import ApiCommand.Json.Pointer

/-!
# Texts of pointers

The text of a pointer is read as the tokens that it was made of, whatever characters they have
(`parse?_text`): an escaped token has no slash, so the slashes of the text are those in front of the
tokens.
-/

namespace ApiCommand.Pointer

@[simp]
theorem escapeChars_nil : escapeChars [] = [] := rfl

/-- Tildes and slashes are escaped, and all other characters stand for themselves. -/
@[simp]
theorem escapeChars_cons (c : Char) (cs : List Char) :
    escapeChars (c :: cs) =
      (if c = '~' then ['~', '0'] else if c = '/' then ['~', '1'] else [c]) ++ escapeChars cs :=
  List.flatMap_cons

/-- An escaped token has no slash. -/
theorem slash_notMem_escapeChars (cs : List Char) : '/' ∉ escapeChars cs := by
  induction cs with
  | nil => simp
  | cons c cs ih =>
    rw [escapeChars_cons, List.mem_append, not_or]
    refine ⟨?_, ih⟩
    split
    next => decide
    next =>
      split
      next => decide
      next hslash => simpa using Ne.symm hslash

/-- An escaped token is read as the token. -/
theorem unescape?_escapeChars (cs : List Char) : unescape? (escapeChars cs) = some cs := by
  induction cs with
  | nil => rfl
  | cons c cs ih =>
    rw [escapeChars_cons]
    split
    next heq => simp [unescape?, ih, heq]
    next htilde =>
      split
      next heq => simp [unescape?, ih, heq]
      next => simp [unescape?, ih, htilde]

/-- Unescaping gets back the tokens that were escaped. -/
theorem unescapeAll?_escaped (tokens : List String) :
    unescapeAll? (tokens.map fun token => escapeChars token.toList) = some tokens := by
  induction tokens with
  | nil => rfl
  | cons token tokens ih =>
    rw [List.map_cons, unescapeAll?, unescape?_escapeChars, ih]
    simp

/-- Escaped tokens with slashes between them are cut into the escaped tokens again. -/
theorem splitOn_escaped (token : String) (tokens : List String) :
    (escapeChars token.toList ++
        tokens.flatMap fun token => '/' :: escapeChars token.toList).splitOn '/' =
      (token :: tokens).map fun token => escapeChars token.toList := by
  induction tokens generalizing token with
  | nil =>
    rw [List.flatMap_nil, List.append_nil,
      List.splitOn_eq_singleton (slash_notMem_escapeChars token.toList)]
    rfl
  | cons next tokens ih =>
    rw [List.flatMap_cons, List.cons_append,
      List.splitOn_append_cons_self_of_not_mem (slash_notMem_escapeChars token.toList), ih]
    rfl

/-- The text of a pointer is read as its tokens. -/
theorem parse?_text (tokens : List String) : parse? (text tokens) = some tokens := by
  unfold parse? text
  rw [String.toList_ofList]
  cases tokens with
  | nil => rfl
  | cons token tokens =>
    rw [List.flatMap_cons, List.cons_append]
    show tokensOf? _ = _
    rw [tokensOf?, splitOn_escaped, unescapeAll?_escaped]

/-- A slash and an escaped token are the text of a pointer with this token. -/
theorem slash_append_escape (token : String) : "/" ++ escape token = text [token] := by
  apply String.toList_inj.mp
  simp [escape, text]

end ApiCommand.Pointer
