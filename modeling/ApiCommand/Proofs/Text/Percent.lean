import ApiCommand.Text.Percent

/-!
# Percent encoding read back

An encoded text is read as the text that it was made of, whatever characters that has
(`decode?_encode`): each byte is read back from the characters it is written with, and the bytes of a
text are its UTF-8 form. Encoded texts consist of unreserved characters and escapes
(`isEscaped_encode`), so there are no delimiters in them (`notMem_encode`).
-/

namespace ApiCommand.Text

/-! ## Bytes of texts -/

namespace Utf8

/-- The list of bytes is gathered from an index on, in reverse. -/
theorem toList_loop_eq (b : ByteArray) (i : Nat) (r : List UInt8) :
    ByteArray.toList.loop b i r = r.reverse ++ b.data.toList.drop i := by
  induction i, r using ByteArray.toList.loop.induct b with
  | case1 i r hlt ih =>
    have hi : i < b.data.toList.length := by simpa using hlt
    have hget : b.get! i = b.data.toList[i] := by
      show b.data[i]! = _
      rw [getElem!_pos b.data i (by simpa using hi), Array.getElem_toList]
    rw [ByteArray.toList.loop, if_pos hlt, ih, List.drop_eq_getElem_cons hi, hget]
    simp
  | case2 i r hge =>
    have hi : b.data.toList.length ≤ i := by simpa using hge
    rw [ByteArray.toList.loop, if_neg hge, List.drop_eq_nil_of_le hi, List.append_nil]

/-- A text is made of the bytes that it is encoded in. -/
theorem toArray_encode (s : String) : (⟨(encode s).toArray⟩ : ByteArray) = s.toByteArray := by
  have hlist : (encode s).toArray = s.toByteArray.data := by
    show (ByteArray.toList.loop s.toUTF8 0 []).toArray = _
    rw [toList_loop_eq]
    simp
  rw [hlist]

/-- The bytes of a text are read as the text. -/
theorem decode?_encode (s : String) : decode? (encode s) = some s := by
  unfold decode? String.fromUTF8?
  rw [toArray_encode, dif_pos s.isValidUTF8]
  rfl

end Utf8

/-! ## Characters of bytes -/

namespace Percent

theorem hexValue?_hexDigit : ∀ {n}, n < 16 → hexValue? (hexDigit n) = some n := by decide

/-- A hexadecimal digit is a letter or a digit. -/
theorem isAlphanum_of_hexValue? {c : Char} (h : (hexValue? c).isSome) : c.isAlphanum := by
  show (c.isUpper || c.isLower || c.isDigit) = true
  unfold hexValue? at h
  split at h
  next hdigit => rw [hdigit, Bool.or_true]
  next =>
    split at h
    next hlower =>
      have hisLower : c.isLower = true := Bool.and_eq_true_iff.mpr
        ⟨decide_eq_true hlower.1, decide_eq_true (Char.le_trans hlower.2 (by decide))⟩
      rw [hisLower, Bool.or_true, Bool.true_or]
    next =>
      split at h
      next hupper =>
        have hisUpper : c.isUpper = true :=
          decide_eq_true ⟨hupper.1, Char.le_trans hupper.2 (by decide)⟩
        rw [hisUpper, Bool.true_or, Bool.true_or]
      next => cases h

/-- The character is written as itself. -/
def IsUnreserved (c : Char) : Prop := c.isAlphanum ∨ c ∈ ['-', '_', '.', '~']

/-- The text consists of unreserved characters and of escapes, which are `%` and two hexadecimal
digits. -/
inductive IsEscaped : List Char → Prop
  | nil : IsEscaped []
  | unreserved {c : Char} {cs : List Char} (hc : IsUnreserved c) :
      IsEscaped cs → IsEscaped (c :: cs)
  | escape {a b : Char} {cs : List Char} (ha : (hexValue? a).isSome) (hb : (hexValue? b).isSome) :
      IsEscaped cs → IsEscaped ('%' :: a :: b :: cs)

/-- Encoding a byte in front of an escaped text leaves it escaped. -/
theorem IsEscaped.encodeByte_append {cs : List Char} (h : IsEscaped cs) (b : UInt8) :
    IsEscaped (encodeByte b ++ cs) := by
  have hb : b.toNat < 256 := b.toNat_lt
  unfold encodeByte
  split
  next hunreserved =>
    simp only [isUnreserved, Bool.or_eq_true, beq_iff_eq, or_assoc] at hunreserved
    refine .unreserved ?_ h
    simpa only [IsUnreserved, List.mem_cons, List.not_mem_nil, or_false] using hunreserved
  next =>
    refine .escape ?_ ?_ h
    · rw [hexValue?_hexDigit (by omega)]
      rfl
    · rw [hexValue?_hexDigit (by omega)]
      rfl

/-- In an encoded text, `%` occurs in escapes only. -/
theorem isEscaped_encode (s : String) : IsEscaped (encode s).toList := by
  rw [encode, String.toList_ofList]
  induction Utf8.encode s with
  | nil => exact .nil
  | cons b bs ih => exact ih.encodeByte_append b

/-- The character occurs in encoded texts. -/
def IsEncoded (c : Char) : Prop :=
  c.isAlphanum ∨ c ∈ ['-', '_', '.', '~', '%']

/-- Whether a character occurs in encoded texts can be checked. -/
instance : DecidablePred IsEncoded := fun _ => inferInstanceAs (Decidable (_ ∨ _))

theorem IsUnreserved.isEncoded {c : Char} (h : IsUnreserved c) : IsEncoded c :=
  h.imp_right fun hmark => List.mem_append_left ['%'] hmark

/-- All characters of an escaped text occur in encoded ones. -/
theorem IsEscaped.isEncoded {cs : List Char} (h : IsEscaped cs) : ∀ c ∈ cs, IsEncoded c := by
  induction h with
  | nil => exact fun _ hc => absurd hc List.not_mem_nil
  | unreserved hc _ ih => exact List.forall_mem_cons.mpr ⟨hc.isEncoded, ih⟩
  | escape ha hb _ ih =>
    have hpercent : IsEncoded '%' := by decide
    exact List.forall_mem_cons.mpr ⟨hpercent, List.forall_mem_cons.mpr
      ⟨.inl (isAlphanum_of_hexValue? ha), List.forall_mem_cons.mpr
        ⟨.inl (isAlphanum_of_hexValue? hb), ih⟩⟩⟩

/-- An encoded text has no other characters than letters, digits and the marks. -/
theorem notMem_encode (s : String) {c : Char} (hc : ¬IsEncoded c) : c ∉ (encode s).toList :=
  fun hmem => hc ((isEscaped_encode s).isEncoded c hmem)

/-! ## Reading back -/

/-- A character other than the percent sign stands for its own bytes. -/
theorem bytes_cons_of_ne {c : Char} (hc : c ≠ '%') (cs : List Char) :
    bytes (c :: cs) = String.utf8EncodeChar c ++ bytes cs := by
  rw [bytes]
  rintro a b rest rfl -
  exact hc rfl

/-- A byte that is written as itself is the UTF-8 form of a character other than `%`. -/
theorem utf8EncodeChar_of_isUnreserved {b : UInt8} (h : isUnreserved b) :
    Char.ofNat b.toNat ≠ '%' ∧ String.utf8EncodeChar (Char.ofNat b.toNat) = [b] := by
  have hall : ∀ n < 256, isUnreserved (UInt8.ofNat n) →
      Char.ofNat n ≠ '%' ∧ String.utf8EncodeChar (Char.ofNat n) = [UInt8.ofNat n] := by
    decide +kernel
  have hbyte := hall b.toNat b.toNat_lt
  rw [UInt8.ofNat_toNat] at hbyte
  exact hbyte h

/-- A byte is read back from its characters. -/
theorem bytes_encodeByte_append (b : UInt8) (cs : List Char) :
    bytes (encodeByte b ++ cs) = b :: bytes cs := by
  have hb : b.toNat < 256 := b.toNat_lt
  unfold encodeByte
  split
  next hunreserved =>
    obtain ⟨hne, hutf8⟩ := utf8EncodeChar_of_isUnreserved hunreserved
    rw [List.singleton_append, bytes_cons_of_ne hne, hutf8, List.singleton_append]
  next =>
    have hhigh := hexValue?_hexDigit (n := b.toNat / 16) (by omega)
    have hlow := hexValue?_hexDigit (n := b.toNat % 16) (by omega)
    have hbyte : UInt8.ofNat (16 * (b.toNat / 16) + b.toNat % 16) = b := by
      rw [Nat.div_add_mod, UInt8.ofNat_toNat]
    simp only [List.cons_append, List.nil_append, bytes, hhigh, hlow, hbyte]

/-- The bytes are read back from their encoding. -/
theorem bytes_flatMap_encodeByte (bs : List UInt8) : bytes (bs.flatMap encodeByte) = bs := by
  induction bs with
  | nil => rfl
  | cons b bs ih => rw [List.flatMap_cons, bytes_encodeByte_append, ih]

/-- An encoded text is read as the text. -/
theorem decode?_encode (s : String) : decode? (encode s) = some s := by
  rw [decode?, encode, String.toList_ofList, bytes_flatMap_encodeByte, Utf8.decode?_encode]

end Percent

end ApiCommand.Text
