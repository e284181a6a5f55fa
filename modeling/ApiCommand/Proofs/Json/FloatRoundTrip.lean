import ApiCommand.Proofs.Binary64.Layout
import ApiCommand.Proofs.Json.RoundTrip

/-!
# Floating-point numbers in JSON

A numeral is read in two roundings: that of its digits, and that of the product with a power of ten.
Digits below `2 ^ 53` and powers up to `10 ^ 22` are numbers of the format, so for these the only
rounding is that of the product (`scaled_of_attracts`). Numbers that are written with so few digits
are read back from their own text (`readsBack_float`).
-/

namespace ApiCommand

namespace Binary64

/-! ## Exact numbers -/

/-- A number is in its own interval. -/
theorem attracts_self (x : Binary64) : x.Attracts (x.significand * 2 ^ x.exponent) := by
  have hunit : (0 : ℚ) < 2 ^ x.exponent := by positivity
  have hreach := x.lowerReach_pos
  exact attracts_of_lt (by nlinarith) (by nlinarith)

/-- The format has the number, and reading a natural number gets it. -/
def Exactly (n : Nat) (x : Binary64) : Prop :=
  ofNat n = some x ∧ x.negative = false ∧ ratioValue x.magnitude = n

/-- Numbers with few binary digits in front of zeros are in the format. -/
theorem exists_exactly {m k : Nat} (hm : m ≠ 0) (hlt : m < 2 ^ 53) (hk : k ≤ 900) :
    ∃ x, Exactly (m * 2 ^ k) x := by
  have hlog : m.log2 ≤ 52 := by
    have := (Nat.log2_lt hm).mpr hlt
    omega
  have hlow : 2 ^ m.log2 ≤ m := Nat.log2_self_le hm
  have hhigh : m < 2 ^ (m.log2 + 1) := Nat.lt_log2_self
  -- The digits are moved up until there are 53 of them.
  obtain ⟨shift, hshift⟩ : ∃ shift, m.log2 + shift = 52 := ⟨52 - m.log2, by omega⟩
  have hvalue : ((m * 2 ^ shift : Nat) * 2 ^ ((k : Int) - shift) : ℚ) = (m * 2 ^ k : Nat) := by
    push_cast
    rw [zpow_sub₀ two_ne_zero, zpow_natCast, zpow_natCast]
    field_simp
  have hx : Canonical ⟨false, m * 2 ^ shift, (k : Int) - shift⟩ := by
    refine ⟨?_, ?_, ?_, .inr ?_⟩
    · calc m * 2 ^ shift < 2 ^ (m.log2 + 1) * 2 ^ shift := by gcongr
        _ = 2 ^ 53 := by rw [← pow_add]; congr 1; omega
    · dsimp only [minExponent]
      omega
    · dsimp only [maxExponent]
      omega
    · calc 2 ^ 52 = 2 ^ m.log2 * 2 ^ shift := by rw [← pow_add, hshift]
        _ ≤ m * 2 ^ shift := by gcongr
  refine ⟨⟨false, m * 2 ^ shift, (k : Int) - shift⟩, ?_, rfl,
    (ratioValue_magnitude _).trans hvalue⟩
  refine ofRatio_of_attracts hx (Nat.mul_ne_zero hm (by positivity)) Nat.one_ne_zero ?_ false
  rw [Nat.cast_one, div_one, ← hvalue]
  exact attracts_self ⟨false, m * 2 ^ shift, (k : Int) - shift⟩

/-- The format has every number up to the size of its significand. -/
theorem exists_exactly_of_lt {m : Nat} (hm : m ≠ 0) (hlt : m < 2 ^ 53) : ∃ x, Exactly m x := by
  have h := exists_exactly hm hlt (Nat.zero_le 900)
  rwa [pow_zero, Nat.mul_one] at h

/-- The format has the powers of ten up to the twenty-second. -/
theorem exists_exactly_pow {n : Nat} (hn : n ≤ 22) : ∃ x, Exactly (10 ^ n) x := by
  have hlt : 5 ^ n < 2 ^ 53 :=
    (Nat.pow_le_pow_right (by decide) hn).trans_lt (by decide : 5 ^ 22 < 2 ^ 53)
  have h := exists_exactly (pow_ne_zero n (by decide)) hlt (hn.trans (by decide))
  rwa [← mul_pow] at h

section Operation

variable {x y z : Binary64} {m n : Nat} (hx : x.Canonical) (hzero : x.significand ≠ 0)
  (hy : Exactly m y) (hz : Exactly n z)

include hx hzero hy hz

/-- A product is the number that its exact value is nearest to. -/
theorem mul_of_attracts (h : x.Attracts (m * n)) : y.mul z = some (x.withSign false) := by
  obtain ⟨-, hnegative, hvalue⟩ := hy
  obtain ⟨-, hnegative', hvalue'⟩ := hz
  rw [mul, hnegative, hnegative']
  refine ofRatio_of_attracts hx hzero (Nat.mul_ne_zero y.magnitude_pos z.magnitude_pos) ?_ _
  rw [← hvalue, ← hvalue', ratioValue, ratioValue, div_mul_div_comm] at h
  exact_mod_cast h

/-- A quotient is the number that its exact value is nearest to. -/
theorem div_of_attracts (h : x.Attracts (m / n)) : y.div z = some (x.withSign false) := by
  obtain ⟨-, hnegative, hvalue⟩ := hy
  obtain ⟨-, hnegative', hvalue'⟩ := hz
  rw [← hvalue, ← hvalue', ratioValue, ratioValue, div_div_div_eq] at h
  have hden : z.magnitude.1 ≠ 0 := by
    intro hnone
    have hpos := h.pos hzero
    rw [hnone, Nat.cast_zero, mul_zero, div_zero] at hpos
    exact hpos.false
  rw [div, hnegative, hnegative']
  refine ofRatio_of_attracts hx hzero (Nat.mul_ne_zero y.magnitude_pos hden) ?_ _
  exact_mod_cast h

end Operation

end Binary64

namespace Json

open Text Binary64

/-! ## Few digits -/

/-- With few digits and a small power of ten, there is only one rounding. -/
theorem scaled_of_attracts {x : Binary64} (hx : x.Canonical) (hzero : x.significand ≠ 0)
    {digits : Nat} {e : Int} (hdigits : digits < 2 ^ 53) (hlow : -22 ≤ e) (hhigh : e ≤ 22)
    (h : x.Attracts (digits * 10 ^ e)) (negative : Bool) :
    scaled negative digits e = some (x.withSign negative) := by
  have hne : digits ≠ 0 := by
    rintro rfl
    simpa using h.pos hzero
  -- Digits and power are both read without rounding, so that only one operation rounds.
  obtain ⟨y, hy⟩ := exists_exactly_of_lt hne hdigits
  unfold scaled
  rw [hy.1]
  by_cases he : 0 ≤ e
  · -- The power is multiplied.
    lift e to Nat using he
    obtain ⟨z, hz⟩ := exists_exactly_pow (n := e) (by omega)
    have hmul : y.mul z = some (x.withSign false) :=
      mul_of_attracts hx hzero hy hz (by rw [zpow_natCast] at h; exact_mod_cast h)
    have hread : ofNat (Nat.pow 10 e) = some z := hz.1
    simp only [Int.natCast_nonneg, if_true, Int.toNat_natCast, hread, Option.bind_eq_bind,
      Option.bind_some, if_pos (show (e : Int) ≤ 308 by omega), hmul]
    rfl
  · -- The digits are divided by the power.
    obtain ⟨n, rfl⟩ : ∃ n : Nat, e = -n := ⟨(-e).toNat, by omega⟩
    obtain ⟨z, hz⟩ := exists_exactly_pow (n := n) (by omega)
    have hdiv : y.div z = some (x.withSign false) :=
      div_of_attracts hx hzero hy hz (by
        rw [zpow_neg, zpow_natCast, ← div_eq_mul_inv] at h
        exact_mod_cast h)
    have hread : ofNat (Nat.pow 10 n) = some z := hz.1
    have hpower : dividePower y (- -(n : Int)).toNat = some (x.withSign false) := by
      rw [neg_neg, Int.toNat_natCast, dividePower, if_pos (by omega), hread, Option.bind_some, hdiv]
    simp only [if_neg he, Option.bind_eq_bind, Option.bind_some, hpower]
    rfl

/-! ## Numerals -/

/-- A whole part is read up to where its digits end. -/
theorem wholePart_of_isWhole {whole rest : List Char} (h : IsWhole whole)
    (hrest : EndsDigits rest) : wholePart (whole ++ rest) = whole := by
  rw [wholePart_append hrest]
  unfold wholePart
  split
  next more => rw [h.zero more rfl]
  next => exact List.takeWhile_eq_self_iff.mpr h.isDigit

/-- A numeral is taken apart at the end of its digits in front of the point. -/
theorem readMagnitude_of_isWhole {negative : Bool} {whole rest : List Char} (h : IsWhole whole)
    (hrest : EndsDigits rest) :
    readMagnitude negative (whole ++ rest) = (do
      let (fraction, rest) ← readFraction rest
      let (exponent, rest) ← readExponent rest
      let n ← assemble negative whole fraction exponent
      some (n, rest)) := by
  have hhead : rest.head?.any Char.isDigit = false := by
    cases rest with
    | nil => rfl
    | cons c rest => simpa using hrest c rfl
  unfold readMagnitude
  dsimp only
  rw [wholePart_of_isWhole h hrest, List.drop_left, hhead, Bool.and_false, Bool.or_false,
    List.isEmpty_eq_false_iff.mpr h.ne_nil, if_neg Bool.false_ne_true]

/-- The sign is read off, and the digits behind it are left. -/
theorem splitMinus_of_isWhole {whole : List Char} (h : IsWhole whole) (negative : Bool)
    (rest : List Char) :
    splitMinus (signChars negative ++ (whole ++ rest)) = (negative, whole ++ rest) := by
  cases negative with
  | true => rfl
  | false =>
    obtain ⟨c, cs, rfl⟩ := List.exists_cons_of_ne_nil h.ne_nil
    have hc := h.isDigit c List.mem_cons_self
    unfold splitMinus
    split
    next heq =>
      cases heq
      exact absurd hc (by decide)
    next => rfl

/-- An exponent that is written is read. -/
theorem readExponent_exponentText (layout : DecimalLayout) (e : Int) :
    readExponent ('e' :: layout.exponentText e) = some (some e, []) := by
  have hend : EndsDigits [] := by rintro c ⟨⟩
  have htake := takeWhile_isDigit hend (isDigit_of_mem_toDigits (n := e.natAbs))
  have hdrop := dropWhile_isDigit hend (isDigit_of_mem_toDigits (n := e.natAbs))
  rw [List.append_nil] at htake hdrop
  rw [readExponent, if_pos (.inl rfl), layout.splitSign_exponentText]
  simp only [htake, hdrop, natural?_toDigits]
  exact congrArg (fun e => some (some e, [])) (signed_natAbs e)

/-- The digits behind a point are read as a fraction. -/
theorem readFraction_of_isDigit {fraction rest : List Char} (hne : fraction ≠ [])
    (hfraction : ∀ c ∈ fraction, c.isDigit) (hrest : EndsDigits rest) :
    readFraction ('.' :: (fraction ++ rest)) = some (some fraction, rest) := by
  rw [readFraction, takeWhile_isDigit hrest hfraction, dropWhile_isDigit hrest hfraction,
    List.isEmpty_eq_false_iff.mpr hne, if_neg Bool.false_ne_true]

/-- The digits around the point are taken together, and each one behind it is a decimal place. -/
theorem assemble_of_lt {negative : Bool} {whole fraction : List Char} {exponent : Option Int}
    (hlt : digitsValue (whole ++ fraction) < Nat.pow 2 64) :
    assemble negative whole (some fraction) exponent =
      (scaled negative (digitsValue (whole ++ fraction)) (exponent.getD 0 - fraction.length)).map
        .float := by
  have hvalue : Nat.ofDigitChars 10 fraction (digitsValue whole) =
      digitsValue (whole ++ fraction) := (Nat.ofDigitChars_append 0).symm
  have hwhole : digitsValue whole < Nat.pow 2 64 := by
    refine lt_of_le_of_lt ?_ hlt
    rw [digitsValue_append]
    exact (Nat.le_mul_of_pos_left _ (by positivity)).trans (Nat.le_add_right _ _)
  have hfirst : accumulate 0 whole = (digitsValue whole, whole.length) := accumulate_eq hwhole
  have hsecond : accumulate (digitsValue whole) fraction =
      (digitsValue (whole ++ fraction), fraction.length) := by
    rw [← hvalue]
    exact accumulate_eq (by rw [hvalue]; exact hlt)
  unfold assemble
  rw [hfirst]
  simp only [Option.getD_some, hsecond, Nat.sub_self, Nat.cast_zero, zero_sub]
  rw [neg_add_eq_sub]

/-- A numeral with a point or an exponent mark is a floating-point number. -/
theorem readNumber_of_numeral {layout : DecimalLayout} {body : List Char} {digits : Nat} {e : Int}
    (h : layout.Numeral body digits e) (hlt : digits < Nat.pow 2 64) (negative : Bool) :
    readNumber (signChars negative ++ body) =
      (scaled negative digits e).map fun x => (.float x, []) := by
  -- Behind the digits comes a mark or a point, neither of which is a digit.
  have hmark : ∀ rest, EndsDigits ('e' :: rest) := by
    rintro rest c ⟨⟩
    decide
  have hpoint : ∀ rest, EndsDigits ('.' :: rest) := by
    rintro rest c ⟨⟩
    decide
  rw [readNumber_eq]
  cases h with
  | @point whole fraction hwhole hne hfraction =>
    have hend : EndsDigits [] := by rintro c ⟨⟩
    have hread := readFraction_of_isDigit hne hfraction hend
    rw [List.append_nil] at hread
    rw [splitMinus_of_isWhole hwhole, readMagnitude_of_isWhole hwhole (hpoint _), hread]
    have hnone : readExponent [] = some (none, []) := rfl
    simp only [hnone, Option.bind_eq_bind, Option.bind_some, assemble_of_lt hlt, Option.getD_none,
      zero_sub]
    cases scaled negative (digitsValue (whole ++ fraction)) (-fraction.length) <;> rfl
  | @mark whole hwhole e =>
    rw [splitMinus_of_isWhole hwhole, readMagnitude_of_isWhole hwhole (hmark _)]
    have hnone : readFraction ('e' :: layout.exponentText e) =
        some (none, 'e' :: layout.exponentText e) := rfl
    have hassemble : assemble negative whole none (some e) =
        (scaled negative (digitsValue whole) e).map .float := by
      -- Without a fraction, the digits are the whole part.
      have h := @assemble_of_lt negative whole [] (some e) (by rwa [List.append_nil])
      rwa [List.append_nil, Option.getD_some, List.length_nil, Nat.cast_zero, sub_zero] at h
    simp only [hnone, Option.bind_eq_bind, Option.bind_some, readExponent_exponentText, hassemble]
    cases scaled negative (digitsValue whole) e <;> rfl
  | @pointMark whole fraction hwhole hne hfraction e =>
    rw [splitMinus_of_isWhole hwhole, readMagnitude_of_isWhole hwhole (hpoint _),
      readFraction_of_isDigit hne hfraction (hmark _)]
    simp only [Option.bind_eq_bind, Option.bind_some, readExponent_exponentText,
      assemble_of_lt hlt, Option.getD_some]
    cases scaled negative (digitsValue (whole ++ fraction)) (e - fraction.length) <;> rfl

/-- A number whose shortest decimal has few digits and few decimal places is read back. The digits
count with the zeros that are written behind an integer. -/
theorem readsBack_float {x : Binary64} (hx : x.Canonical) (hplaces : -22 ≤ x.shortest.exponent)
    (hdigits : x.shortest.digits * 10 ^ (x.shortest.exponent + 1).toNat < 2 ^ 53) :
    ReadsBack (.float x) := by
  change readNumber (numberLayout.text x) = some (.float x, [])
  by_cases hzero : x.significand = 0
  · rw [DecimalLayout.eq_zero_of_significand hx hzero]
    cases x.negative <;> decide +kernel
  · obtain ⟨body, digits, e, htext, hnumeral, hshows, hattracts⟩ :=
      numberLayout.numeral_text hx hzero
    have hlt : digits < 2 ^ 53 := hshows.digits_le.trans_lt hdigits
    have hlow : -22 ≤ e := by
      rcases hshows.exponent with rfl | rfl
      · exact hplaces
      · decide
    have hhigh : e ≤ 22 := by
      rcases hshows.exponent with rfl | rfl
      · -- A greater power of ten has too many digits.
        by_contra hlarge
        have hpower : 10 ^ 23 ≤ 10 ^ (x.shortest.exponent + 1).toNat :=
          Nat.pow_le_pow_right (by decide) (by omega)
        have hle := hpower.trans
          (Nat.le_mul_of_pos_left _ (Binary64.digits_shortest_pos hzero hx))
        omega
      · decide
    rw [htext, readNumber_of_numeral hnumeral (hlt.trans (by decide)),
      scaled_of_attracts hx hzero hlt hlow hhigh hattracts]
    rfl

end Json

end ApiCommand
