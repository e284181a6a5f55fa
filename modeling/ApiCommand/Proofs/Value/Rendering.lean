import ApiCommand.Proofs.Binary64.Layout
import ApiCommand.Proofs.Json.RoundTrip
import ApiCommand.Proofs.Text.WhiteSpace
import ApiCommand.Proofs.Value.Decode

/-!
# What users would write is read as what it stands for

`Json.plainText` writes a value as a user would type it. A schema whose primary type reads values
of this kind reads the text as the value again (`Schema.decode_plainText`). Without a type, a text
that is JSON is read as JSON even if it is meant as a string.
-/

namespace ApiCommand

/-- A character of a numeral. -/
def Text.IsNumeral (c : Char) : Prop := c.isDigit ∨ c ∈ ['-', '+', '.', 'e']

namespace Text

theorem IsNumeral.isWhiteSpace_eq {c : Char} (h : IsNumeral c) :
    Unicode.isWhiteSpace c = false := by
  rcases h with hdigit | hmark
  · exact Unicode.isWhiteSpace_of_isDigit hdigit
  · simp only [List.mem_cons, List.not_mem_nil, or_false] at hmark
    rcases hmark with rfl | rfl | rfl | rfl <;> decide

/-- The characters of a list are those of numerals. -/
def Numerals (cs : List Char) : Prop := ∀ c ∈ cs, IsNumeral c

theorem numerals_of_isDigit {cs : List Char} (h : ∀ c ∈ cs, c.isDigit) : Numerals cs :=
  fun c hc => .inl (h c hc)

theorem numerals_zero : Numerals ['0'] := numerals_of_isDigit isDigit_of_mem_singleton_zero

theorem Numerals.append {cs ds : List Char} (hcs : Numerals cs) (hds : Numerals ds) :
    Numerals (cs ++ ds) :=
  List.forall_mem_append.mpr ⟨hcs, hds⟩

theorem Numerals.cons {c : Char} {cs : List Char} (hcs : Numerals cs)
    (hc : c ∈ ['-', '+', '.', 'e']) : Numerals (c :: cs) :=
  List.forall_mem_cons.mpr ⟨.inr hc, hcs⟩

theorem numerals_nil : Numerals [] := fun _ hc => nomatch hc

theorem Numerals.trim_eq {cs : List Char} (h : Numerals cs) : Unicode.trim cs = cs :=
  Unicode.trim_eq_self fun c hc => (h c hc).isWhiteSpace_eq

end Text

open Text

/-- An integer is written as a numeral. -/
theorem numerals_intChars (n : Int) : Numerals (Json.intChars n) := by
  unfold Json.intChars
  split
  · exact (numerals_of_isDigit isDigit_of_mem_toDigits).cons (by decide)
  · exact numerals_of_isDigit isDigit_of_mem_toDigits

namespace DecimalLayout

/-- An exponent is written as a numeral. -/
theorem numerals_exponentText (layout : DecimalLayout) (e : Int) :
    Numerals (layout.exponentText e) := by
  unfold exponentText
  split
  · exact (numerals_of_isDigit isDigit_of_mem_toDigits).cons (by decide)
  · refine Numerals.append ?_ (numerals_of_isDigit isDigit_of_mem_toDigits)
    split
    · exact numerals_nil.cons (by decide)
    · exact numerals_nil

/-- A decimal number is written as a numeral. -/
theorem numerals_decimalText (layout : DecimalLayout) (d : Decimal) :
    Numerals (layout.decimalText d) := by
  have hdigits : Numerals (Nat.toDigits 10 d.digits) :=
    numerals_of_isDigit isDigit_of_mem_toDigits
  unfold decimalText
  dsimp only
  generalize Nat.toDigits 10 d.digits = ds at hdigits ⊢
  have htake : ∀ n, Numerals (ds.take n) := fun n c hc => hdigits c (List.mem_of_mem_take hc)
  have hdrop : ∀ n, Numerals (ds.drop n) := fun n c hc => hdigits c (List.mem_of_mem_drop hc)
  have hzeros : ∀ n, Numerals (List.replicate n '0') := fun _ =>
    numerals_of_isDigit isDigit_of_mem_replicate_zero
  split_ifs
  · exact (hdigits.append (hzeros _)).append (numerals_zero.cons (by decide))
  · exact (htake _).append ((hdrop _).cons (by decide))
  · exact numerals_zero.append ((Numerals.append (hzeros _) hdigits).cons (by decide))
  · exact ((htake 1).append numerals_nil).append ((numerals_exponentText layout _).cons (by decide))
  · exact ((htake 1).append ((hdrop 1).cons (by decide))).append
      ((numerals_exponentText layout _).cons (by decide))

/-- A floating-point number is written as a numeral. -/
theorem numerals_text (layout : DecimalLayout) (x : Binary64) : Numerals (layout.text x) := by
  unfold text
  refine Numerals.append ?_ ?_
  · split
    · exact numerals_nil.cons (by decide)
    · exact numerals_nil
  · split
    · exact numerals_zero.append (numerals_zero.cons (by decide))
    · exact numerals_decimalText layout _

end DecimalLayout

/-! ## Scalars -/

/-- An integer is read back if it fits 64 bits with a sign. -/
theorem Text.int64?_intChars {n : Int} (hlow : -2 ^ 63 ≤ n) (hhigh : n < 2 ^ 63) :
    int64? (Json.intChars n) = some n := by
  have hsplit : splitSign (Json.intChars n) = (decide (n < 0), Nat.toDigits 10 n.natAbs) := by
    unfold Json.intChars
    split
    next hneg =>
      rw [decide_eq_true hneg]
      rfl
    next hpos => rw [decide_eq_false hpos, splitSign_toDigits]
  unfold int64?
  rw [hsplit]
  simp only [natural?_toDigits, Option.bind_eq_bind, Option.bind_some, signed_natAbs]
  exact if_pos ⟨hlow, hhigh⟩

namespace Value

/-- The plain text of a number is its JSON text. -/
theorem toList_plainText_number (n : Number) :
    (Json.number n).plainText.toList = Json.numberChars n := by
  simp [Json.plainText, Json.text, Json.writeOnto]

/-- No character of a numeral is white space, so trimming keeps it whole. -/
theorem scalar_int {n : Int} (hlow : -2 ^ 63 ≤ n) (hhigh : n < 2 ^ 63) :
    scalar (some "integer") (Json.number (.int n)).plainText = .ok (.number (.int n)) := by
  have hread : Text.int64? (Unicode.trim (Json.number (.int n)).plainText.toList) = some n := by
    rw [toList_plainText_number, Json.numberChars, (numerals_intChars n).trim_eq,
      Text.int64?_intChars hlow hhigh]
  simp only [scalar, hread]
  rfl

/-- A floating-point number is read back from its plain text. -/
theorem scalar_float {x : Binary64} (hx : x.Canonical) :
    scalar (some "number") (Json.number (.float x)).plainText = .ok (.number (.float x)) := by
  have hread : Text.decimal? (Unicode.trim (Json.number (.float x)).plainText.toList) =
      some x := by
    rw [toList_plainText_number, Json.numberChars, (DecimalLayout.numerals_text _ x).trim_eq,
      DecimalLayout.decimal?_text _ hx]
  simp only [scalar, hread]

/-- Without a type, or with one that there is no reader for, texts are read as JSON. -/
theorem scalar_of_untyped {type : Option String}
    (h : ∀ name ∈ ["string", "integer", "number", "boolean", "null"], type ≠ some name)
    (raw : String) : scalar type raw = .ok (Json.parseLoose raw) := by
  unfold scalar
  split
  next => exact (h "string" (by decide) rfl).elim
  next => exact (h "integer" (by decide) rfl).elim
  next => exact (h "number" (by decide) rfl).elim
  next => exact (h "boolean" (by decide) rfl).elim
  next => exact (h "null" (by decide) rfl).elim
  next => rfl

/-! ## Texts of JSON -/

/-- An array is not taken for a single item. -/
theorem opensWith_array (items : List Json) : opensWith '[' (Json.array items).plainText := by
  cases items <;> simp [Json.plainText, Json.text, Json.writeOnto, opensWith, Unicode.trimStart,
    Unicode.isWhiteSpace_bracket]

/-- An object is not taken for a pair. -/
theorem opensWith_object (members : List (String × Json)) :
    opensWith '{' (Json.object members).plainText := by
  cases members <;> simp [Json.plainText, Json.text, Json.writeOnto, opensWith, Unicode.trimStart,
    Unicode.isWhiteSpace_brace]

/-- Only strings are not written as JSON, and are read as themselves if they are no JSON. -/
theorem parseLoose_plainText {v : Json}
    (h : (∃ text, v = .string text ∧ Json.parse? text = none) ∨
      v.kind ≠ .string ∧ Json.Readable Json.maxDepth v) : Json.parseLoose v.plainText = v := by
  rw [Json.parseLoose]
  rcases h with ⟨text, rfl, hnone⟩ | ⟨hkind, hreadable⟩
  · rw [Json.plainText, hnone]
    rfl
  · have hplain : v.plainText = v.text := by
      cases v with
      | string => exact absurd rfl hkind
      | _ => rfl
    rw [hplain, Json.parse?_text hreadable]
    rfl

end Value

namespace Schema

open Value

/-- The value is of the kind that the primary type of the schema reads, and its text is not read as
something else. Without a type texts are read as JSON, and so a string must not be JSON itself. -/
def Takes (s : Schema) (v : Json) : Prop :=
  match s.primaryType? with
  | some "string" => ∃ text, v = .string text
  | some "integer" => ∃ n, v = .number (.int n) ∧ -2 ^ 63 ≤ n ∧ n < 2 ^ 63
  | some "number" => ∃ x : Binary64, v = .number (.float x) ∧ x.Canonical
  | some "boolean" => ∃ b, v = .bool b
  | some "null" => v = .null
  | some "array" => (∃ items, v = .array items) ∧ Json.Readable Json.maxDepth v
  | some "object" => (∃ members, v = .object members) ∧ Json.Readable Json.maxDepth v
  | _ =>
    (∃ text, v = .string text ∧ Json.parse? text = none) ∨
      v.kind ≠ .string ∧ Json.Readable Json.maxDepth v

/-- A schema reads the text of a value that it takes as the value. -/
theorem decode_plainText (host : Host) {s : Schema} {v : Json} (h : s.Takes v)
    (hfile : namesFile v.plainText = false) (current : Option Json) :
    s.decode host current v.plainText = .ok v := by
  rw [decode_of_text host s current hfile]
  unfold Takes at h
  -- One case for each type that has a reader, and one for all others.
  split at h
  next htype =>
    obtain ⟨text, rfl⟩ := h
    rw [htype]
    rfl
  next htype =>
    obtain ⟨n, rfl, hlow, hhigh⟩ := h
    rw [htype, if_neg (by decide), if_neg (by decide), scalar_int hlow hhigh]
  next htype =>
    obtain ⟨x, rfl, hx⟩ := h
    rw [htype, if_neg (by decide), if_neg (by decide), scalar_float hx]
  next htype =>
    obtain ⟨b, rfl⟩ := h
    rw [htype]
    cases b <;> rfl
  next htype =>
    subst h
    rw [htype]
    rfl
  next htype =>
    obtain ⟨⟨items, rfl⟩, hreadable⟩ := h
    have hread : Json.parse? (Json.array items).plainText = some (.array items) :=
      Json.parse?_text hreadable
    rw [htype, if_pos rfl, if_pos (opensWith_array items), arrayLiteral, hread]
  next htype =>
    obtain ⟨⟨members, rfl⟩, hreadable⟩ := h
    have hread : Json.parse? (Json.object members).plainText = some (.object members) :=
      Json.parse?_text hreadable
    rw [htype, if_neg (by decide), if_pos rfl, if_pos (opensWith_object members), objectLiteral,
      hread]
  next hstring hinteger hnumber hboolean hnull harray hobject =>
    have hnone : ∀ name ∈ ["string", "integer", "number", "boolean", "null"],
        s.primaryType? ≠ some name := by
      intro name hname
      simp only [List.mem_cons, List.not_mem_nil, or_false] at hname
      rcases hname with rfl | rfl | rfl | rfl | rfl
      · exact hstring
      · exact hinteger
      · exact hnumber
      · exact hboolean
      · exact hnull
    rw [if_neg harray, if_neg hobject, scalar_of_untyped hnone, parseLoose_plainText h]

end Schema

end ApiCommand
