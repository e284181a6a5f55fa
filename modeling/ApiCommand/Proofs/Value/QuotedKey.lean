import ApiCommand.Proofs.Flag.Resolution
import ApiCommand.Proofs.Json.StringLiteral
import ApiCommand.Proofs.Value.Decode

/-!
# Keys in quotes

A text `key=value` for an object may have its key in quotes. The closing quote is found without
reading the key, as the first quote that no backslash escapes, and for a JSON string this is where
the string ends (`cutQuote_of_literal`). So a key can be any text at all, and setting its member is
all that the text does (`decode_of_quotedKey`).
-/

namespace ApiCommand

namespace Value

open Json (Literal Spelling)

/-! ## The closing quote -/

/-- A plain character in a literal does not end it. -/
theorem cutQuote_cons_of_plain {c : Char} (hquote : c ≠ '"') (hbackslash : c ≠ '\\')
    (cs : List Char) :
    cutQuote false (c :: cs) = (cutQuote false cs).map fun r => (c :: r.1, r.2) := by
  simp [cutQuote, hquote, beq_eq_false_iff_ne.mpr hbackslash]

/-- Whatever stands behind a backslash is passed over. -/
theorem cutQuote_backslash_cons (c : Char) (cs : List Char) :
    cutQuote false ('\\' :: c :: cs) =
      (cutQuote false cs).map fun r => ('\\' :: c :: r.1, r.2) := by
  simp [cutQuote, Function.comp_def]

/-- A hexadecimal digit is neither a quote nor a backslash. -/
theorem ne_of_hexDigit? {c : Char} {n : Nat} (h : Json.hexDigit? c = some n) :
    c ≠ '"' ∧ c ≠ '\\' := by
  constructor <;>
  · rintro rfl
    cases h

/-- Four hexadecimal digits are passed over. -/
theorem cutQuote_hexCode {a b c d : Char} {code : Nat} (h : Json.hexCode? a b c d = some code)
    (cs : List Char) :
    cutQuote false (a :: b :: c :: d :: cs) =
      (cutQuote false cs).map fun r => (a :: b :: c :: d :: r.1, r.2) := by
  obtain ⟨_, ha, h⟩ := Option.bind_eq_some_iff.mp h
  obtain ⟨_, hb, h⟩ := Option.bind_eq_some_iff.mp h
  obtain ⟨_, hc, h⟩ := Option.bind_eq_some_iff.mp h
  obtain ⟨_, hd, -⟩ := Option.bind_eq_some_iff.mp h
  have hdigit : ∀ {c : Char} {n : Nat}, Json.hexDigit? c = some n → ∀ cs,
      cutQuote false (c :: cs) = (cutQuote false cs).map fun r => (c :: r.1, r.2) :=
    fun hn => cutQuote_cons_of_plain (ne_of_hexDigit? hn).1 (ne_of_hexDigit? hn).2
  simp only [hdigit ha, hdigit hb, hdigit hc, hdigit hd, Option.map_map, Function.comp_def]

/-- No spelling of a character has the closing quote in it. -/
theorem cutQuote_spelling {spelled : List Char} {c : Char} (h : Spelling spelled c)
    (cs : List Char) :
    cutQuote false (spelled ++ cs) = (cutQuote false cs).map fun r => (spelled ++ r.1, r.2) := by
  cases h with
  | plain hquote hbackslash => exact cutQuote_cons_of_plain hquote hbackslash cs
  | short => exact cutQuote_backslash_cons _ cs
  | code hcode =>
    simp only [List.cons_append, List.nil_append, cutQuote_backslash_cons, cutQuote_hexCode hcode,
      Option.map_map, Function.comp_def]
  | pair hcode _ hlow =>
    simp only [List.cons_append, List.nil_append, cutQuote_backslash_cons, cutQuote_hexCode hcode,
      cutQuote_hexCode hlow, Option.map_map, Function.comp_def]

/-- A text that begins with a literal is cut where the literal ends. -/
theorem cutQuote_of_literal {text literal : List Char} (h : Literal text literal)
    (rest : List Char) : cutQuote false (literal ++ rest) = some (literal, rest) := by
  induction h with
  | close => rfl
  | cons hspelled _ ih =>
    rw [List.append_assoc, cutQuote_spelling hspelled, ih, Option.map_some]

/-- A cut text is put together again from its parts. -/
theorem eq_append_of_cutQuote {escaped : Bool} {cs start rest : List Char}
    (h : cutQuote escaped cs = some (start, rest)) : cs = start ++ rest := by
  induction cs generalizing escaped start with
  | nil => cases h
  | cons c cs ih =>
    rw [cutQuote] at h
    split at h
    next =>
      cases h
      rfl
    next =>
      obtain ⟨⟨start', rest'⟩, hcut, heq⟩ := Option.map_eq_some_iff.mp h
      cases heq
      rw [ih hcut, List.cons_append]

/-! ## Keys -/

/-- The text is a JSON string for the key. -/
def IsLiteral (text key : String) : Prop :=
  ∃ literal, Literal key.toList literal ∧ text.toList = '"' :: literal

/-- Every key has a literal: its JSON text. -/
theorem isLiteral_text (key : String) : IsLiteral (Json.string key).text key :=
  ⟨_, Json.literal_escaped key.toList, by simp [Json.text, Json.writeOnto, Json.stringChars]⟩

/-- A text with a quote in front has a key and a value exactly if it is a literal for the key, an
equals sign and the value. -/
theorem splitPair_eq_some_iff_of_quote {raw key value : String}
    (hquote : raw.toList.head? = some '"') :
    splitPair raw = some (key, value) ↔
      ∃ literal, IsLiteral literal key ∧ raw = literal ++ "=" ++ value := by
  obtain ⟨cs, hcs⟩ := List.head?_eq_some_iff.mp hquote
  simp only [splitPair, hcs]
  constructor
  · -- The key that is cut off ends at the quote that is not escaped, which is where its literal
    -- ends.
    intro h
    split at h
    next => cases h
    next literal rest hcut =>
      split at h
      next text value' hread =>
        cases h
        obtain ⟨_, hliteral, heq⟩ := Json.readString_eq_some_iff.mp hread
        rw [List.append_nil] at heq
        subst heq
        have hraw := eq_append_of_cutQuote hcut
        refine ⟨String.ofList ('"' :: literal), ⟨literal, by simpa using hliteral, by simp⟩, ?_⟩
        exact String.toList_injective (by simp [hcs, hraw])
      next => cases h
  · rintro ⟨literal, ⟨spelled, hliteral, hspelled⟩, rfl⟩
    rw [toList_pair, hspelled, List.cons_append, List.cons.injEq] at hcs
    have hread := Json.readString_eq_some_iff.mpr ⟨spelled, hliteral, (List.append_nil _).symm⟩
    rw [← hcs.2, cutQuote_of_literal hliteral]
    simp [hread]

/-- The members are those that were there, apart from the one of the key. -/
structure ChangedAt (members there : Dict Json) (key : String) (item : Json) : Prop where
  /-- The key has the value. -/
  changed : Dict.get? members key = some item
  /-- The other keys have the values that they had, or none. -/
  kept : ∀ other, other ≠ key → Dict.get? members other = Dict.get? there other
  /-- If those that were there form a dictionary, then the members do. -/
  sorted : Dict.Sorted there → Dict.Sorted members

/-- Inserting a member changes it and no other one. -/
theorem changedAt_insert (there : Dict Json) (key : String) (item : Json) :
    ChangedAt (Dict.insert there key item) there key item where
  changed := by rw [Dict.get?_insert, if_pos rfl]
  kept := fun other hne => by rw [Dict.get?_insert, if_neg hne.symm]
  sorted := fun hsorted => hsorted.insert key item

end Value

namespace Schema

open Value

section

variable (host : Host) (s : Schema) (hobject : s.primaryType? = some "object")
  (current : Option Json) (key raw : String)

/-- The value of a member can be read exactly if its property is not declared or its schema can read
it. -/
theorem exists_decodeProperty_iff :
    (∃ item, decodeProperty host s.properties key raw = .ok item) ↔
      s.property? key = none ∨
        ∃ t, s.property? key = some t ∧ ∃ item, t.decode host none raw = .ok item := by
  rw [decodeProperty_eq, property?]
  cases Dict.get? s.properties key with
  | none => exact iff_of_true ⟨_, rfl⟩ (.inl rfl)
  | some t => simp

include hobject

/-- A text `key=value` with a literal for the key sets the member of the key. -/
theorem decode_literal {literal : String} (hliteral : IsLiteral literal key) :
    s.decode host current (literal ++ "=" ++ raw) =
      (decodeProperty host s.properties key raw).map fun item =>
        .object (Dict.insert (currentMembers current) key item) := by
  obtain ⟨spelled, -, hspelled⟩ := id hliteral
  have hquote : (literal ++ "=" ++ raw).toList = '"' :: (spelled ++ '=' :: raw.toList) := by
    rw [toList_pair, hspelled, List.cons_append]
  -- A text with a quote in front stands neither for a file nor for a whole object.
  have hfile : namesFile (literal ++ "=" ++ raw) = false := by
    rw [namesFile, hquote]
    rfl
  have hopens : opensWith '{' (literal ++ "=" ++ raw) = false := by
    have hspace : Unicode.isWhiteSpace '"' = false := by decide
    rw [opensWith, hquote, Unicode.trimStart, List.dropWhile_cons_of_neg (by simp [hspace])]
    rfl
  have hsplit : splitPair (literal ++ "=" ++ raw) = some (key, raw) :=
    (splitPair_eq_some_iff_of_quote (by rw [hquote]; rfl)).mpr ⟨literal, hliteral, rfl⟩
  have harray : s.primaryType? ≠ some "array" := by simp [hobject]
  rw [decode_of_text host s current hfile, if_neg harray, if_pos hobject, hopens, hsplit]
  rfl

/-- Whatever the key is, a text with a literal for it and a value behind an equals sign can be read
for an object unless the property is declared and its schema cannot read the value. What is there
then changes at the key and nowhere else. Without quotes a key does the same, unless a text that
begins with it is read in another way. -/
theorem decode_of_quotedKey :
    IsLiteral (Json.string key).text key ∧ ∀ literal, IsLiteral literal key →
      ((∃ v, s.decode host current (literal ++ "=" ++ raw) = .ok v) ↔
        s.property? key = none ∨
          ∃ t, s.property? key = some t ∧ ∃ item, t.decode host none raw = .ok item) ∧
      (∀ v, s.decode host current (literal ++ "=" ++ raw) = .ok v →
        ∃ members item, v = .object members ∧
          ChangedAt members (currentMembers current) key item ∧
          (∀ t, s.property? key = some t → t.decode host none raw = .ok item) ∧
          (s.property? key = none → item = (Json.parse? raw).getD (.string raw))) ∧
      (key ≠ "" → PlainKey key →
        s.decode host current (key ++ "=" ++ raw) =
          s.decode host current (literal ++ "=" ++ raw)) := by
  refine ⟨isLiteral_text key, fun literal hliteral => ?_⟩
  -- A literal in front of an equals sign is cut off as the key, quotes and all.
  rw [decode_literal host s hobject current key raw hliteral]
  refine ⟨?_, fun v hv => ?_, fun hne hplain => ?_⟩
  · rw [← exists_decodeProperty_iff]
    cases decodeProperty host s.properties key raw <;> simp [Except.map]
  · cases hitem : decodeProperty host s.properties key raw with
    | error fault => simp [hitem, Except.map] at hv
    | ok item =>
      rw [hitem] at hv
      cases hv
      rw [decodeProperty_eq] at hitem
      refine ⟨_, item, rfl, changedAt_insert _ key item, fun t ht => ?_, fun hnone => ?_⟩
      · rw [property?] at ht
        rw [ht] at hitem
        exact hitem
      · rw [property?] at hnone
        rw [hnone] at hitem
        exact (Except.ok.inj hitem).symm
  · -- A plain key is cut off in the same way.
    rw [decode_pair host s current hobject hplain raw hne]

end

/-- A key that consists of a quote, a backslash and an equals sign is set beside another one. -/
theorem decode_of_quotedKey_marks :
    ∃ members item, emptyObject.primaryType? = some "object" ∧
      IsLiteral "\"\\\"\\\\=\"" "\"\\=" ∧
      emptyObject.decode Host.bare (some (.object [("size", .null)]))
        ("\"\\\"\\\\=\"" ++ "=" ++ "[1]") = .ok (.object members) ∧
      ChangedAt members [("size", .null)] "\"\\=" item := by
  have htext : (Json.string "\"\\=").text = "\"\\\"\\\\=\"" := by decide +kernel
  obtain ⟨hliteral, hread⟩ := decode_of_quotedKey Host.bare emptyObject rfl
    (some (.object [("size", .null)])) "\"\\=" "[1]"
  rw [htext] at hliteral
  obtain ⟨hsucceeds, hvalue, -⟩ := hread _ hliteral
  obtain ⟨v, hv⟩ := hsucceeds.mpr (.inl rfl)
  obtain ⟨members, item, rfl, hchanged, -⟩ := hvalue v hv
  exact ⟨members, item, rfl, hliteral, hv, hchanged⟩

end Schema

end ApiCommand
