import ApiCommand.Proofs.Binary64.Rounding
import Mathlib.Data.Nat.Cast.Order.Field

/-!
# Shortest decimals read back

Each grid that is tried has a neighbour of the number on either side of it. With seventeen digits
the grid is finer than the numbers, so one of the two is in the interval of the number
(`isSome_onGrid`). Whichever grid is taken, the decimal is in the interval
(`shortest_attracts`), and so it is read back as the number (`ofDecimal_of_attracts`).
-/

namespace ApiCommand

namespace Decimal

/-- The value of a decimal. -/
def value (d : Decimal) : ℚ := d.digits * 10 ^ d.exponent

theorem ratio_pos (d : Decimal) : 0 < d.ratio.2 := by
  unfold ratio
  split
  · exact Nat.one_pos
  · exact Nat.pow_pos (by decide)

/-- The ratio of a decimal has its value. -/
theorem ratioValue_ratio (d : Decimal) : Binary64.ratioValue d.ratio = d.value := by
  obtain ⟨digits, e⟩ := d
  unfold ratio value Binary64.ratioValue
  dsimp only
  split
  next he =>
    lift e to Nat using he
    simp
  next he =>
    obtain ⟨n, rfl⟩ : ∃ n : Nat, e = -n := ⟨(-e).toNat, by omega⟩
    simp [div_eq_mul_inv]

/-- Dropping zeros at the end does not change the value. -/
theorem value_trim (fuel : Nat) (d : Decimal) : (d.trim fuel).value = d.value := by
  induction fuel generalizing d with
  | zero => rfl
  | succ fuel ih =>
    rw [trim]
    split
    next h =>
      have hdigits : (d.digits : ℚ) = (d.digits / 10 : Nat) * 10 := by
        exact_mod_cast (Nat.div_mul_cancel (Nat.dvd_of_mod_eq_zero h.2)).symm
      rw [ih, value, value, hdigits, zpow_add_one₀ (by norm_num)]
      ring
    next => rfl

end Decimal

namespace Binary64

/-! ## The leading digit -/

theorem lt_pow_decimalLength (n : Nat) : n < 10 ^ decimalLength n :=
  (Nat.length_toDigits_le_iff (by decide) Nat.length_toDigits_pos).mp le_rfl

/-- A number that is not zero reaches the power of ten of its leading digit. -/
theorem pow_decimalLength_le {n : Nat} (hn : n ≠ 0) : 10 ^ (decimalLength n - 1) ≤ n := by
  by_contra hlt
  have hpos : 0 < decimalLength n := Nat.length_toDigits_pos
  rw [not_le] at hlt
  by_cases hone : decimalLength n = 1
  · rw [hone] at hlt
    exact hn (Nat.lt_one_iff.mp hlt)
  · have hle : decimalLength n ≤ decimalLength n - 1 :=
      (Nat.length_toDigits_le_iff (by decide) (by omega)).mpr hlt
    omega

/-- The integer part of a ratio. -/
theorem cast_div_bounds (num : Nat) {den : Nat} (hden : den ≠ 0) :
    ((num / den : Nat) : ℚ) ≤ num / den ∧ (num / den : ℚ) < (num / den : Nat) + 1 := by
  have hden' : (0 : ℚ) < den := by exact_mod_cast Nat.pos_of_ne_zero hden
  refine ⟨Nat.cast_div_le, ?_⟩
  rw [div_lt_iff₀ hden', mul_comm]
  exact_mod_cast Nat.lt_mul_div_succ num (Nat.pos_of_ne_zero hden)

/-- The number of digits of an integer part at least one. -/
theorem decimalLength_div {num den : Nat} (hden : den ≠ 0) (hle : den ≤ num) :
    (10 : ℚ) ^ ((decimalLength (num / den) : Int) - 1) ≤ num / den ∧
      (num / den : ℚ) < 10 ^ (decimalLength (num / den) : Int) := by
  obtain ⟨hfloor, hceil⟩ := cast_div_bounds num hden
  have hquotient : num / den ≠ 0 := (Nat.div_pos hle (Nat.pos_of_ne_zero hden)).ne'
  have hpos : 1 ≤ decimalLength (num / den) := Nat.length_toDigits_pos
  constructor
  · refine le_trans ?_ hfloor
    rw [show (decimalLength (num / den) : Int) - 1 = ((decimalLength (num / den) - 1 : Nat) : Int)
      by omega, zpow_natCast]
    exact_mod_cast pow_decimalLength_le hquotient
  · refine hceil.trans_le ?_
    rw [zpow_natCast]
    exact_mod_cast Nat.succ_le_of_lt (lt_pow_decimalLength (num / den))

/-- The leading power of ten of a positive ratio. -/
theorem leadingPower_spec {r : Nat × Nat} (hnum : r.1 ≠ 0) (hden : r.2 ≠ 0) :
    (10 : ℚ) ^ leadingPower r ≤ ratioValue r ∧ ratioValue r < 10 ^ (leadingPower r + 1) := by
  have hnum' : (0 : ℚ) < r.1 := by exact_mod_cast Nat.pos_of_ne_zero hnum
  have hden' : (0 : ℚ) < r.2 := by exact_mod_cast Nat.pos_of_ne_zero hden
  unfold leadingPower ratioValue
  split
  next hle =>
    obtain ⟨hlow, hhigh⟩ := decimalLength_div hden hle
    rw [sub_add_cancel]
    exact ⟨hlow, hhigh⟩
  next hlt =>
    -- Below one, the digits of the inverse count.
    obtain ⟨hlow, hhigh⟩ := decimalLength_div hnum (Nat.le_of_not_le hlt)
    have hpos : 1 ≤ decimalLength (r.2 / r.1) := Nat.length_toDigits_pos
    dsimp only
    generalize decimalLength (r.2 / r.1) = length at hlow hhigh hpos
    have hinverse : (r.1 / r.2 : ℚ) = (r.2 / r.1 : ℚ)⁻¹ := (inv_div _ _).symm
    have habove : (10 : ℚ) ^ (-(length : Int)) < r.1 / r.2 := by
      rw [hinverse, zpow_neg]
      exact inv_strictAnti₀ (by positivity) hhigh
    have hbelow : (r.1 / r.2 : ℚ) ≤ 10 ^ (-(length : Int) + 1) := by
      rw [hinverse, show -(length : Int) + 1 = -((length : Int) - 1) by ring, zpow_neg]
      exact inv_anti₀ (by positivity) hlow
    have htest : r.2 ≤ r.1 * Nat.pow 10 (length - 1) ↔
        (10 : ℚ) ^ (-(length : Int) + 1) ≤ r.1 / r.2 := by
      rw [show -(length : Int) + 1 = -((length - 1 : Nat) : Int) by omega, zpow_neg, zpow_natCast,
        inv_le_iff_one_le_mul₀ (by positivity), div_mul_eq_mul_div, one_le_div hden', Nat.pow_eq]
      norm_cast
    split
    next hexact =>
      rw [htest] at hexact
      have hpower : (-((length - 1 : Nat) : Int)) = -(length : Int) + 1 := by omega
      rw [hpower]
      refine ⟨hexact, hbelow.trans_lt ?_⟩
      exact zpow_lt_zpow_right₀ (by norm_num) (by omega)
    next hinexact =>
      rw [htest, not_le] at hinexact
      exact ⟨habove.le, hinexact⟩

/-! ## Neighbours -/

/-- The neighbours on a grid are the multiples on either side. -/
theorem neighbours_spec {r : Nat × Nat} (hden : r.2 ≠ 0) (e : Int) :
    (neighbours r e).1.value ≤ ratioValue r ∧ ratioValue r < (neighbours r e).2.value ∧
      (neighbours r e).2.value = (neighbours r e).1.value + 10 ^ e := by
  -- Both branches count steps of one power of ten, as many as there are below the ratio.
  have hgrid : ∀ {below : Nat}, (below : ℚ) ≤ ratioValue r / 10 ^ e →
      ratioValue r / 10 ^ e < below + 1 →
      Decimal.value ⟨below, e⟩ ≤ ratioValue r ∧ ratioValue r < Decimal.value ⟨below + 1, e⟩ ∧
        Decimal.value ⟨below + 1, e⟩ = Decimal.value ⟨below, e⟩ + 10 ^ e := by
    intro below hlow hhigh
    rw [le_div_iff₀ (by positivity)] at hlow
    rw [div_lt_iff₀ (by positivity)] at hhigh
    refine ⟨hlow, ?_, ?_⟩
    · simpa only [Decimal.value, Nat.cast_add, Nat.cast_one] using hhigh
    · simp only [Decimal.value, Nat.cast_add, Nat.cast_one]
      ring
  unfold neighbours
  simp only [Nat.pow_eq]
  split
  next he =>
    -- The power of ten goes to the denominator.
    lift e to Nat using he
    have hpower : 10 ^ e ≠ 0 := pow_ne_zero e (by decide)
    obtain ⟨hlow, hhigh⟩ := cast_div_bounds r.1 (Nat.mul_ne_zero hden hpower)
    have hratio : (r.1 / (r.2 * 10 ^ e : Nat) : ℚ) = ratioValue r / 10 ^ (e : Int) := by
      rw [ratioValue, div_div]
      push_cast
      rfl
    rw [hratio] at hlow hhigh
    exact hgrid hlow hhigh
  next he =>
    -- The power of ten goes to the numerator.
    obtain ⟨n, rfl⟩ : ∃ n : Nat, e = -n := ⟨(-e).toNat, by omega⟩
    obtain ⟨hlow, hhigh⟩ := cast_div_bounds (r.1 * 10 ^ n) hden
    have hratio : ((r.1 * 10 ^ n : Nat) / r.2 : ℚ) = ratioValue r / 10 ^ (-(n : Int)) := by
      rw [ratioValue, zpow_neg, div_inv_eq_mul, zpow_natCast, div_mul_eq_mul_div]
      push_cast
      rfl
    rw [hratio] at hlow hhigh
    simpa using hgrid hlow hhigh

/-- Whatever is strictly between the ends is in the interval. -/
theorem attracts_of_lt {x : Binary64} {r : ℚ}
    (hlow : (x.significand - x.lowerReach) * 2 ^ x.exponent < r)
    (hhigh : r < (x.significand + 1 / 2) * 2 ^ x.exponent) : x.Attracts r :=
  ⟨hlow.le, hhigh.le, fun _ => ⟨hlow, hhigh⟩⟩

/-- A grid with seventeen digits is finer than the interval is wide. -/
theorem gap_lt {x : Binary64} (hx : x.Canonical) {e : Int}
    (hlead : (10 : ℚ) ^ (e + 16) ≤ x.significand * 2 ^ x.exponent) :
    (10 : ℚ) ^ e < (x.lowerReach + 1 / 2) * 2 ^ x.exponent := by
  have hunit : (0 : ℚ) < 2 ^ x.exponent := by positivity
  have hlead' : (10 : ℚ) ^ e * 10 ^ 16 ≤ x.significand * 2 ^ x.exponent := by
    rw [zpow_add₀ (by norm_num)] at hlead
    exact hlead
  unfold lowerReach
  split
  next hpower =>
    -- Below a power of two the interval is only three quarters of the spacing wide.
    rw [hpower.1] at hlead'
    push_cast [Nat.pow_eq] at hlead'
    nlinarith
  next =>
    have hmax : (x.significand : ℚ) * 2 ^ x.exponent ≤ 2 ^ 53 * 2 ^ x.exponent := by
      gcongr
      exact_mod_cast hx.1.le
    nlinarith

/-- Seventeen digits leave no room for a number between two neighbours: one of these is in the
interval. -/
theorem attracts_of_gap_lt {x : Binary64} {low high gap : ℚ}
    (hlow : low ≤ x.significand * 2 ^ x.exponent) (hhigh : x.significand * 2 ^ x.exponent < high)
    (heq : high = low + gap) (hgap : gap < (x.lowerReach + 1 / 2) * 2 ^ x.exponent) :
    x.Attracts low ∨ x.Attracts high := by
  have hunit : (0 : ℚ) < 2 ^ x.exponent := by positivity
  have hreach := x.lowerReach_pos
  -- If the lower neighbour is too low, then the upper one is at most a gap above the lower end.
  by_cases hin : (x.significand - x.lowerReach) * 2 ^ x.exponent < low
  · exact .inl (attracts_of_lt hin (by nlinarith))
  · exact .inr (attracts_of_lt (by nlinarith) (by linarith))

/-! ## The search -/

theorem magnitude_pos (x : Binary64) : x.magnitude.2 ≠ 0 := by
  unfold magnitude
  split
  · exact Nat.one_ne_zero
  · exact (Nat.pow_pos two_pos).ne'

/-- The ratio for the magnitude of a number has the value of the number. -/
theorem ratioValue_magnitude (x : Binary64) :
    ratioValue x.magnitude = x.significand * 2 ^ x.exponent := by
  obtain ⟨negative, significand, e⟩ := x
  unfold magnitude ratioValue
  dsimp only
  split
  next he =>
    lift e to Nat using he
    simp
  next he =>
    obtain ⟨n, rfl⟩ : ∃ n : Nat, e = -n := ⟨(-e).toNat, by omega⟩
    simp [div_eq_mul_inv]

/-- The nearer of two neighbours is one of them. -/
theorem nearer_eq (r : Nat × Nat) (low high : Decimal) :
    nearer r low high = low ∨ nearer r low high = high := by
  unfold nearer
  dsimp only
  split
  · exact .inl rfl
  · exact .inr rfl
  · split
    · exact .inl rfl
    · exact .inr rfl

section Search

variable {x : Binary64} (hzero : x.significand ≠ 0)

include hzero

/-- The check that is made on ratios is the one that rounding stands for. -/
theorem roundsTo_decimal_iff (d : Decimal) : x.roundsTo d.ratio ↔ x.Attracts d.value := by
  rw [roundsTo_iff hzero d.ratio_pos, d.ratioValue_ratio]

/-- A decimal that is found on a grid is in the interval. -/
theorem attracts_of_onGrid {length : Nat} {d : Decimal} (h : x.onGrid length = some d) :
    x.Attracts d.value := by
  rw [← roundsTo_decimal_iff hzero]
  unfold onGrid at h
  dsimp only at h
  generalize neighbours x.magnitude _ = pair at h
  split at h
  next hlow hhigh =>
    cases h
    rcases nearer_eq x.magnitude pair.1 pair.2 with heq | heq <;> rw [heq]
    · exact hlow
    · exact hhigh
  next hlow _ =>
    cases h
    exact hlow
  next hhigh =>
    cases h
    exact hhigh
  next => cases h

/-- There is a decimal with seventeen digits in the interval. -/
theorem isSome_onGrid (hx : x.Canonical) : (x.onGrid 17).isSome := by
  have hmagnitude := x.ratioValue_magnitude
  have hden := x.magnitude_pos
  -- A number that is not zero has a numerator that is not.
  have hnum : x.magnitude.1 ≠ 0 := by
    intro hnum
    have hpos : (0 : ℚ) < x.significand * 2 ^ x.exponent := by
      have : (0 : ℚ) < x.significand := by exact_mod_cast Nat.pos_of_ne_zero hzero
      positivity
    rw [ratioValue, hnum, Nat.cast_zero, zero_div] at hmagnitude
    exact hpos.ne hmagnitude
  have hlead := (leadingPower_spec hnum hden).1
  obtain ⟨hlow, hhigh, heq⟩ :=
    neighbours_spec hden (leadingPower x.magnitude - (((17 : Nat) : Int) - 1))
  rw [hmagnitude] at hlead hlow hhigh
  -- With seventeen digits, the grid is finer than the numbers of the format.
  have hgap := gap_lt hx (e := leadingPower x.magnitude - (((17 : Nat) : Int) - 1)) (by
    rw [show leadingPower x.magnitude - (((17 : Nat) : Int) - 1) + 16 = leadingPower x.magnitude by
      push_cast; ring]
    exact hlead)
  have hfound := attracts_of_gap_lt hlow hhigh heq hgap
  rw [← roundsTo_decimal_iff hzero, ← roundsTo_decimal_iff hzero] at hfound
  unfold onGrid
  dsimp only
  rcases hfound with hfound | hfound <;> rw [hfound] <;> split <;> simp_all

/-- The shortest decimal of a number is in its interval. -/
theorem shortest_attracts (hx : x.Canonical) : x.Attracts x.shortest.value := by
  have hfound : ((List.range 17).findSome? fun n => x.onGrid (n + 1)).isSome :=
    List.findSome?_isSome_iff.mpr ⟨16, by decide, isSome_onGrid hzero hx⟩
  obtain ⟨d, hd⟩ := Option.isSome_iff_exists.mp hfound
  obtain ⟨n, -, hn⟩ := List.exists_of_findSome?_eq_some hd
  unfold shortest
  dsimp only
  rw [hd, Option.getD_some, Decimal.value_trim]
  exact attracts_of_onGrid hzero hn

/-- The shortest decimal of a number is not zero. -/
theorem digits_shortest_pos (hx : x.Canonical) : 0 < x.shortest.digits := by
  refine Nat.pos_of_ne_zero fun hnone => ?_
  have hpos := (shortest_attracts hzero hx).pos hzero
  rw [Decimal.value, hnone, Nat.cast_zero, zero_mul] at hpos
  exact hpos.false

end Search

/-! ## Reading decimals -/

/-- The position of the leading digit bounds a decimal. -/
theorem decimal_bounds {digits : Nat} (hdigits : digits ≠ 0) (exponent : Int) :
    (10 : ℚ) ^ ((decimalLength digits : Int) + exponent - 1) ≤ digits * 10 ^ exponent ∧
      digits * (10 : ℚ) ^ exponent < 10 ^ ((decimalLength digits : Int) + exponent) := by
  have hpos : 1 ≤ decimalLength digits := Nat.length_toDigits_pos
  constructor
  · rw [show (decimalLength digits : Int) + exponent - 1 =
      ((decimalLength digits - 1 : Nat) : Int) + exponent by omega, zpow_add₀ (by norm_num),
      zpow_natCast]
    gcongr
    exact_mod_cast pow_decimalLength_le hdigits
  · rw [zpow_add₀ (by norm_num), zpow_natCast]
    gcongr
    exact_mod_cast lt_pow_decimalLength digits

/-- An inequality between powers of natural numbers as one between rationals. -/
theorem two_zpow_lt {m n : Nat} (h : Nat.pow 2 m < Nat.pow 10 n) :
    (2 : ℚ) ^ (m : Int) < 10 ^ (n : Int) := by
  rw [zpow_natCast, zpow_natCast]
  exact_mod_cast h

/-- All numbers of the format are below this power of ten. -/
theorem greatest_lt : (2 : ℚ) ^ (1024 : Int) < 10 ^ (309 : Int) :=
  two_zpow_lt (m := 1024) (n := 309) (by decide +kernel)

/-- What is below this power of ten is nearer to zero than to the least number. -/
theorem least_gt : (10 : ℚ) ^ (-331 : Int) < 1 / 2 * 2 ^ (-1074 : Int) := by
  have h : (2 : ℚ) ^ (1075 : Int) < 10 ^ (331 : Int) :=
    two_zpow_lt (m := 1075) (n := 331) (by decide +kernel)
  have hhalf : (1 / 2 * 2 ^ (-1074 : Int) : ℚ) = (2 ^ (1075 : Int))⁻¹ := by
    rw [← zpow_neg, show (-1075 : Int) = -1 + -1074 by decide, zpow_add₀ two_ne_zero, zpow_neg_one,
      one_div]
  rw [hhalf, zpow_neg]
  exact inv_strictAnti₀ (by positivity) h

/-- Neither end of the range of the format is beyond the positions that are settled at once. -/
theorem leading_bounds {x : Binary64} (hx : x.Canonical) (hzero : x.significand ≠ 0) {r : ℚ}
    (h : x.Attracts r) {leading : Int} (hlow : (10 : ℚ) ^ (leading - 1) ≤ r)
    (hhigh : r < 10 ^ leading) : -330 ≤ leading ∧ leading ≤ 310 := by
  obtain ⟨-, hleast, hgreatest, -⟩ := id hx
  rw [minExponent] at hleast
  rw [maxExponent] at hgreatest
  constructor
  · -- No interval of a number reaches down to less than half of the least number.
    have hunit : (2 : ℚ) ^ (-1074 : Int) ≤ 2 ^ x.exponent :=
      zpow_le_zpow_right₀ one_le_two hleast
    have hone : (1 : ℚ) ≤ x.significand := by exact_mod_cast Nat.one_le_iff_ne_zero.mpr hzero
    have hreach := x.lowerReach_le
    have hbelow : (10 : ℚ) ^ (-331 : Int) < 10 ^ leading := by
      calc (10 : ℚ) ^ (-331 : Int) < 1 / 2 * 2 ^ (-1074 : Int) := least_gt
        _ ≤ (x.significand - x.lowerReach) * 2 ^ x.exponent :=
          mul_le_mul (by linarith) hunit (by positivity) (by linarith)
        _ ≤ r := h.low
        _ < 10 ^ leading := hhigh
    have := (zpow_lt_zpow_iff_right₀ (by norm_num : (1 : ℚ) < 10)).mp hbelow
    omega
  · -- No interval reaches up to the power of two beyond the format.
    have habove : (10 : ℚ) ^ (leading - 1) < 10 ^ (309 : Int) := by
      calc (10 : ℚ) ^ (leading - 1) ≤ r := hlow
        _ < 2 ^ (x.exponent + 53) := h.lt hx
        _ ≤ 2 ^ (1024 : Int) := zpow_le_zpow_right₀ one_le_two (by omega)
        _ < 10 ^ (309 : Int) := greatest_lt
    have := (zpow_lt_zpow_iff_right₀ (by norm_num : (1 : ℚ) < 10)).mp habove
    omega

/-- A decimal in the interval of a number is read as the number. -/
theorem ofDecimal_of_attracts {x : Binary64} (hx : x.Canonical) (hzero : x.significand ≠ 0)
    {digits : Nat} {exponent : Int} (h : x.Attracts (digits * 10 ^ exponent)) (negative : Bool) :
    ofDecimal negative digits exponent = some (x.withSign negative) := by
  have hdigits : digits ≠ 0 := by
    rintro rfl
    simpa using h.pos hzero
  obtain ⟨hlow, hhigh⟩ := decimal_bounds hdigits exponent
  obtain ⟨hleast, hgreatest⟩ := leading_bounds hx hzero h hlow hhigh
  unfold ofDecimal
  rw [if_neg hdigits]
  dsimp only
  rw [if_neg (by omega), if_neg (by omega)]
  split
  next he =>
    lift exponent to Nat using he
    refine ofRatio_of_attracts hx hzero Nat.one_ne_zero ?_ negative
    simpa using h
  next he =>
    obtain ⟨n, rfl⟩ : ∃ n : Nat, exponent = -n := ⟨(-exponent).toNat, by omega⟩
    refine ofRatio_of_attracts hx hzero (Nat.pow_pos (by decide)).ne' ?_ negative
    simpa [div_eq_mul_inv] using h

end Binary64

end ApiCommand
