import ApiCommand.Json.Printer
import ApiCommand.Json.Reader
import Mathlib.Tactic.SplitIfs

/-!
# String literals

Inside of a JSON string each character is written in one of four ways (`Spelling`), and a literal is
a sequence of these behind which a quote stands (`Literal`). The reader of strings accepts exactly
the literals (`readString_eq_some_iff`), and every text has one (`literal_escaped`).
-/

namespace ApiCommand.Json

/-- The characters that one character of a text can be written with. -/
inductive Spelling : List Char → Char → Prop
  /-- All but quotes, backslashes and control characters stand for themselves. -/
  | plain {c : Char} (hquote : c ≠ '"') (hbackslash : c ≠ '\\') (hcontrol : 32 ≤ c.toNat) :
      Spelling [c] c
  /-- A letter or a mark behind a backslash. -/
  | short {e c : Char} (hescape : shortEscape? e = some c) : Spelling ['\\', e] c
  /-- The code of the character, which is no surrogate. -/
  | code {a b c d : Char} {code : Nat} (hcode : hexCode? a b c d = some code)
      (hleading : isLeading code = false) (htrailing : isTrailing code = false) :
      Spelling ['\\', 'u', a, b, c, d] (Char.ofNat code)
  /-- A leading and a trailing surrogate. -/
  | pair {a b c d e f g h : Char} {code low : Nat} (hcode : hexCode? a b c d = some code)
      (hleading : isLeading code = true) (hlow : hexCode? e f g h = some low)
      (htrailing : isTrailing low = true) :
      Spelling ['\\', 'u', a, b, c, d, '\\', 'u', e, f, g, h]
        (Char.ofNat (0x10000 + (code - 0xD800) * 0x400 + (low - 0xDC00)))

/-- What stands behind the first quote of a literal for a text, up to and including the last one. -/
inductive Literal : List Char → List Char → Prop
  | close : Literal [] ['"']
  | cons {c : Char} {text spelled literal : List Char} (hspelled : Spelling spelled c)
      (hrest : Literal text literal) : Literal (c :: text) (spelled ++ literal)

/-- A leading surrogate is not a trailing one. -/
theorem isTrailing_of_isLeading {code : Nat} (h : isLeading code = true) :
    isTrailing code = false := by
  simp only [isLeading, Bool.and_eq_true, decide_eq_true_eq] at h
  simp only [isTrailing, Bool.and_eq_false_iff, decide_eq_false_iff_not]
  omega

/-- A character is read from each of its spellings. -/
theorem Spelling.readString_append {spelled : List Char} {c : Char} (h : Spelling spelled c)
    (cs : List Char) :
    readString (spelled ++ cs) = (readString cs).map fun r => (c :: r.1, r.2) := by
  cases h with
  | plain hquote hbackslash hcontrol =>
    rw [List.singleton_append, readString]
    · rw [if_neg (not_or.mpr ⟨hbackslash, Nat.not_lt.mpr hcontrol⟩)]
      cases readString cs <;> rfl
    · exact hquote
    · exact fun _ _ _ _ _ heq => absurd heq hbackslash
    · exact fun _ _ heq => absurd heq hbackslash
  | @short e c hescape =>
    -- There is no short escape with the letter of codes.
    have hletter : e ≠ 'u' := by
      rintro rfl
      cases hescape
    simp only [List.cons_append, List.nil_append]
    rw [readString]
    · rw [hescape]
      cases readString cs <;> rfl
    · exact fun _ _ _ _ _ heq => absurd heq hletter
  | code hcode hleading htrailing =>
    simp only [List.cons_append, List.nil_append]
    rw [readString, hcode]
    simp only [Option.bind_eq_bind, Option.bind_some, htrailing, hleading, Bool.false_eq_true,
      if_false]
    cases readString cs <;> rfl
  | pair hcode hleading hlow htrailing =>
    simp only [List.cons_append, List.nil_append]
    rw [readString, hcode]
    simp only [Option.bind_eq_bind, Option.bind_some, isTrailing_of_isLeading hleading, hleading,
      hlow, htrailing, Bool.false_eq_true, Bool.not_true, if_false, if_true]
    cases readString cs <;> rfl

/-- What is read as a string is at its closing quote or begins with a spelling. -/
theorem exists_spelling_of_readString {cs text rest : List Char}
    (h : readString cs = some (text, rest)) :
    (cs = '"' :: rest ∧ text = []) ∨
      ∃ c spelled more text', cs = spelled ++ more ∧ text = c :: text' ∧ Spelling spelled c ∧
        readString more = some (text', rest) := by
  unfold readString at h
  split at h
  next => cases h
  next =>
    -- The literal ends here.
    cases h
    exact .inl ⟨rfl, rfl⟩
  next a b c d cs =>
    -- The escape of a code. Two of them together stand for a character beyond the first plane.
    obtain ⟨code, hcode, h⟩ := Option.bind_eq_some_iff.mp h
    split at h
    next => cases h
    next htrailing =>
      split at h
      next hleading =>
        split at h
        next e f g k cs _ =>
          obtain ⟨low, hlow, h⟩ := Option.bind_eq_some_iff.mp h
          split at h
          next => cases h
          next hpair =>
            obtain ⟨⟨text', rest'⟩, hmore, h⟩ := Option.bind_eq_some_iff.mp h
            cases h
            have hspelled := Spelling.pair hcode hleading hlow (by simpa using hpair)
            exact .inr ⟨_, _, cs, text', rfl, rfl, hspelled, hmore⟩
        next => cases h
      next hleading =>
        obtain ⟨⟨text', rest'⟩, hmore, h⟩ := Option.bind_eq_some_iff.mp h
        cases h
        have hspelled := Spelling.code hcode (by simpa using hleading) (by simpa using htrailing)
        exact .inr ⟨_, _, cs, text', rfl, rfl, hspelled, hmore⟩
  next e cs _ =>
    -- The escape of a single character.
    obtain ⟨c, hescape, h⟩ := Option.bind_eq_some_iff.mp h
    obtain ⟨⟨text', rest'⟩, hmore, h⟩ := Option.bind_eq_some_iff.mp h
    cases h
    exact .inr ⟨c, _, cs, text', rfl, rfl, .short hescape, hmore⟩
  next c cs hquote _ _ =>
    -- Any other character stands for itself, unless it is a control character.
    split at h
    next => cases h
    next hplain =>
      obtain ⟨hbackslash, hcontrol⟩ := not_or.mp hplain
      obtain ⟨⟨text', rest'⟩, hmore, h⟩ := Option.bind_eq_some_iff.mp h
      cases h
      exact .inr ⟨c, [c], cs, text', rfl, rfl, .plain hquote hbackslash (Nat.not_lt.mp hcontrol),
        hmore⟩

/-- A text is read from what stands behind a quote exactly if this begins with a literal for it. -/
theorem readString_eq_some_iff {cs text rest : List Char} :
    readString cs = some (text, rest) ↔ ∃ literal, Literal text literal ∧ cs = literal ++ rest := by
  constructor
  · intro h
    -- Each spelling is for one character of the text.
    induction text generalizing cs with
    | nil =>
      obtain ⟨rfl, -⟩ | ⟨_, _, _, _, -, htext, -⟩ := exists_spelling_of_readString h
      · exact ⟨_, .close, rfl⟩
      · cases htext
    | cons c text ih =>
      obtain ⟨-, htext⟩ | ⟨_, spelled, more, _, rfl, htext, hspelled, hmore⟩ :=
        exists_spelling_of_readString h
      · cases htext
      · cases htext
        obtain ⟨literal, hliteral, rfl⟩ := ih hmore
        exact ⟨spelled ++ literal, .cons hspelled hliteral, (List.append_assoc _ _ _).symm⟩
  · rintro ⟨literal, hliteral, rfl⟩
    induction hliteral with
    | close => rfl
    | cons hspelled _ ih =>
      rw [List.append_assoc, hspelled.readString_append, ih]
      rfl

theorem hexDigit?_hexDigit {n : Nat} (hn : n < 16) : hexDigit? (hexDigit n) = some n := by
  have hall : ∀ n : Fin 16, hexDigit? (hexDigit n) = some n.val := by decide
  exact hall ⟨n, hn⟩

/-- What is written for a character is one of its spellings. -/
theorem spelling_escapeChar (c : Char) : Spelling (escapeChar c) c := by
  unfold escapeChar
  split_ifs with hquote hbackslash hfeed hreturn htab hback hform hcontrol
  · exact .short (by rw [hquote]; rfl)
  · exact .short (by rw [hbackslash]; rfl)
  · exact .short (by rw [hfeed]; rfl)
  · exact .short (by rw [hreturn]; rfl)
  · exact .short (by rw [htab]; rfl)
  · exact .short (by rw [← Char.ofNat_toNat c, hback]; rfl)
  · exact .short (by rw [← Char.ofNat_toNat c, hform]; rfl)
  · have hcode : hexCode? '0' '0' (hexDigit (c.toNat / 16)) (hexDigit (c.toNat % 16)) =
        some c.toNat := by
      have hsum : ((0 * 16 + 0) * 16 + c.toNat / 16) * 16 + c.toNat % 16 = c.toNat := by omega
      rw [hexCode?, hexDigit?_hexDigit (by omega), hexDigit?_hexDigit (by omega)]
      exact congrArg some hsum
    have hspelled := Spelling.code hcode
      (by simp only [isLeading, Bool.and_eq_false_iff, decide_eq_false_iff_not]; omega)
      (by simp only [isTrailing, Bool.and_eq_false_iff, decide_eq_false_iff_not]; omega)
    rwa [Char.ofNat_toNat] at hspelled
  · exact .plain hquote hbackslash (Nat.not_lt.mp hcontrol)

/-- What is written for a text is a literal for it. -/
theorem literal_escaped (text : List Char) :
    Literal text (text.flatMap escapeChar ++ ['"']) := by
  induction text with
  | nil => exact .close
  | cons c text ih =>
    rw [List.flatMap_cons, List.append_assoc]
    exact .cons (spelling_escapeChar c) ih

end ApiCommand.Json
