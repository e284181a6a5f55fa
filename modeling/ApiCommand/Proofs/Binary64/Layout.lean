import ApiCommand.Binary64.Layout
import ApiCommand.Proofs.Binary64.Shortest
import ApiCommand.Proofs.Text.Numeral

/-!
# Texts of numbers read back

Whatever layout is chosen, the text of a decimal is a numeral with the value of the decimal
(`numeral_decimalText`). So the text of a number is read back as the number (`decimal?_text`).
-/

namespace ApiCommand

namespace DecimalLayout

open Text

/-- An exponent has a sign, or none, and digits. -/
theorem splitSign_exponentText (layout : DecimalLayout) (e : Int) :
    splitSign (layout.exponentText e) = (decide (e < 0), Nat.toDigits 10 e.natAbs) := by
  unfold exponentText
  by_cases hneg : e < 0
  · rw [if_pos hneg, decide_eq_true hneg, show (-e).toNat = e.natAbs by omega]
    rfl
  · rw [if_neg hneg, decide_eq_false hneg, show e.toNat = e.natAbs by omega]
    split
    · rfl
    · exact splitSign_toDigits _

/-- An exponent is read back from its text. -/
theorem exponent?_exponentText (layout : DecimalLayout) (e : Int) :
    exponent? ('e' :: layout.exponentText e) = some e := by
  rw [exponent?, if_pos (.inl rfl), splitSign_exponentText]
  simp only [natural?_toDigits]
  exact congrArg some (signed_natAbs e)

/-! ## Layouts -/

/-- The text is a numeral for `digits * 10 ^ exponent`, with a point, an exponent mark or both. -/
inductive Numeral (layout : DecimalLayout) : List Char → Nat → Int → Prop
  | point {whole fraction : List Char} (hwhole : IsWhole whole) (hne : fraction ≠ [])
      (hfraction : ∀ c ∈ fraction, c.isDigit) :
      Numeral layout (whole ++ '.' :: fraction) (digitsValue (whole ++ fraction)) (-fraction.length)
  | mark {whole : List Char} (hwhole : IsWhole whole) (e : Int) :
      Numeral layout (whole ++ 'e' :: layout.exponentText e) (digitsValue whole) e
  | pointMark {whole fraction : List Char} (hwhole : IsWhole whole) (hne : fraction ≠ [])
      (hfraction : ∀ c ∈ fraction, c.isDigit) (e : Int) :
      Numeral layout (whole ++ '.' :: (fraction ++ 'e' :: layout.exponentText e))
        (digitsValue (whole ++ fraction)) (e - fraction.length)

/-- A numeral behind a sign is read as the number nearest to what it stands for. -/
theorem Numeral.decimal?_eq {layout : DecimalLayout} {body : List Char} {digits : Nat} {e : Int}
    (h : layout.Numeral body digits e) (negative : Bool) :
    decimal? (signChars negative ++ body) = Binary64.ofDecimal negative digits e := by
  cases h with
  | @point whole fraction hwhole _ hfraction =>
    have h := @decimal?_of_point whole fraction [] hwhole.ne_nil hwhole.isDigit 0 negative
      hfraction rfl (by rintro c ⟨⟩)
    rwa [List.append_nil, zero_sub] at h
  | mark hwhole e =>
    exact decimal?_of_mark hwhole.ne_nil hwhole.isDigit negative (layout.exponent?_exponentText e)
  | pointMark hwhole _ hfraction e =>
    exact decimal?_of_point hwhole.ne_nil hwhole.isDigit negative hfraction
      (layout.exponent?_exponentText e) (by rintro c ⟨⟩; decide)

/-- The numeral has the digits of the decimal, or, where the decimal is an integer, maybe with zeros
behind them of which one stands behind the point. -/
structure Shows (d : Decimal) (digits : Nat) (e : Int) : Prop where
  value : (digits * 10 ^ e : ℚ) = d.value
  digits_le : digits ≤ d.digits * 10 ^ (d.exponent + 1).toNat
  exponent : e = d.exponent ∨ e = -1

/-- The digits of a decimal themselves, with no zeros behind them, show it. -/
theorem shows_self (d : Decimal) : Shows d d.digits d.exponent where
  value := rfl
  digits_le := Nat.le_mul_of_pos_right _ (Nat.pow_pos (by decide))
  exponent := .inl rfl

/-- The text of a decimal is a numeral with its value. -/
theorem numeral_decimalText (layout : DecimalLayout) {d : Decimal} (hd : d.digits ≠ 0) :
    ∃ digits e, layout.Numeral (layout.decimalText d) digits e ∧ Shows d digits e := by
  have hwhole := isWhole_toDigits d.digits
  have hvalue := digitsValue_toDigits d.digits
  have hlength : 0 < (Nat.toDigits 10 d.digits).length := Nat.length_toDigits_pos
  -- All but the first layout have just the digits of the decimal.
  have hself : ∀ {body : List Char} {digits : Nat} {e : Int}, layout.Numeral body digits e →
      digits = d.digits → e = d.exponent →
        ∃ digits e, layout.Numeral body digits e ∧ Shows d digits e := by
    rintro body digits e hnumeral rfl rfl
    exact ⟨_, _, hnumeral, shows_self d⟩
  unfold decimalText
  dsimp only
  have hzeros := isWhole_toDigits_append hd
  generalize Nat.toDigits 10 d.digits = ds at hwhole hvalue hlength hzeros ⊢
  have hdrop : ∀ {n}, ∀ c ∈ ds.drop n, c.isDigit := fun c hc =>
    hwhole.isDigit c (List.mem_of_mem_drop hc)
  split_ifs with hpositional hinteger hpoint hone
  · -- Zeros are appended to an integer.
    obtain ⟨k, hk⟩ := Int.eq_ofNat_of_zero_le hinteger
    have hdigits : digitsValue (ds ++ List.replicate d.exponent.toNat '0' ++ ['0']) =
        d.digits * 10 ^ (k + 1) := by
      rw [digitsValue_append, digitsValue_append, digitsValue_replicate_zero, hvalue, hk,
        show digitsValue ['0'] = 0 from rfl]
      simp
      ring
    refine ⟨_, _, .point (hzeros _) (List.cons_ne_nil _ _) isDigit_of_mem_singleton_zero, ?_⟩
    rw [hdigits]
    refine ⟨?_, ?_, .inr rfl⟩
    · rw [Decimal.value, hk]
      push_cast
      simp
      ring
    · rw [show (d.exponent + 1).toNat = k + 1 by omega]
  · -- The point is among the digits.
    refine hself (.point (hwhole.take _) ?_ hdrop) ?_ ?_
    · rw [Ne, List.drop_eq_nil_iff]
      omega
    · rw [List.take_append_drop, hvalue]
    · rw [List.length_drop]
      omega
  · -- Zeros stand between the point and the digits.
    refine hself (@Numeral.point layout ['0'] (List.replicate _ '0' ++ ds) isWhole_zero ?_
      (List.forall_mem_append.mpr ⟨isDigit_of_mem_replicate_zero, hwhole.isDigit⟩)) ?_ ?_
    · exact List.append_ne_nil_of_right_ne_nil _ hwhole.ne_nil
    · rw [digitsValue_append, digitsValue_append, digitsValue_replicate_zero, hvalue,
        show digitsValue ['0'] = 0 from rfl]
      omega
    · rw [List.length_append, List.length_replicate]
      omega
  · -- There is only one digit.
    have hshort : ds.length ≤ 1 := List.drop_eq_nil_iff.mp (List.isEmpty_iff.mp hone)
    have hall : ds.take 1 = ds := List.take_of_length_le hshort
    rw [List.append_nil, hall]
    exact hself (.mark hwhole _) hvalue (by omega)
  · -- The point is behind the first digit.
    rw [List.append_assoc, List.cons_append]
    refine hself (.pointMark (hwhole.take 0) ?_ hdrop _) ?_ ?_
    · exact fun hnil => hone (List.isEmpty_iff.mpr hnil)
    · rw [List.take_append_drop, hvalue]
    · rw [List.length_drop]
      omega

/-- The text of a number other than zero is a numeral with a value in the interval of the number. -/
theorem numeral_text (layout : DecimalLayout) {x : Binary64} (hx : x.Canonical)
    (hzero : x.significand ≠ 0) :
    ∃ body digits e, layout.text x = signChars x.negative ++ body ∧
      layout.Numeral body digits e ∧ Shows x.shortest digits e ∧
      x.Attracts (digits * 10 ^ e) := by
  have hattracts := Binary64.shortest_attracts hzero hx
  obtain ⟨digits, e, hnumeral, hshows⟩ :=
    layout.numeral_decimalText (Binary64.digits_shortest_pos hzero hx).ne'
  refine ⟨_, digits, e, ?_, hnumeral, hshows, hshows.value ▸ hattracts⟩
  rw [text, Binary64.isZero, beq_false_of_ne hzero, if_neg Bool.false_ne_true]
  rfl

/-- A number without digits is a zero, and the format has one of each sign. -/
theorem eq_zero_of_significand {x : Binary64} (hx : x.Canonical) (hzero : x.significand = 0) :
    x = .zero x.negative := by
  have hexponent : x.exponent = Binary64.minExponent := by
    refine hx.2.2.2.resolve_right fun hle => ?_
    rw [hzero] at hle
    exact absurd hle (by decide)
  obtain ⟨negative, significand, exponent⟩ := x
  obtain rfl : significand = 0 := hzero
  obtain rfl : exponent = Binary64.minExponent := hexponent
  rfl

/-- The text of a number is read back as the number. -/
theorem decimal?_text (layout : DecimalLayout) {x : Binary64} (hx : x.Canonical) :
    decimal? (layout.text x) = some x := by
  by_cases hzero : x.significand = 0
  · rw [eq_zero_of_significand hx hzero]
    cases x.negative <;> rfl
  · obtain ⟨body, digits, e, htext, hnumeral, -, hattracts⟩ := layout.numeral_text hx hzero
    rw [htext, hnumeral.decimal?_eq, Binary64.ofDecimal_of_attracts hx hzero hattracts]
    rfl

end DecimalLayout

end ApiCommand
