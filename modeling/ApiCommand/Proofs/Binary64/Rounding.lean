import ApiCommand.Binary64.Shortest
import Mathlib.Algebra.Order.Field.Power
import Mathlib.Data.Rat.Cast.Order
import Mathlib.Tactic.FieldSimp
import Mathlib.Tactic.Linarith
import Mathlib.Tactic.Positivity
import Mathlib.Tactic.Ring

/-!
# Rounding to binary floating-point numbers

Around each number there is an interval of reals that are nearer to it than to its neighbours
(`Binary64.Attracts`). Rounding a ratio inside of it gives the number
(`ofRatio_of_attracts`), and `Binary64.roundsTo` decides whether a ratio is inside
(`roundsTo_iff`).
-/

namespace ApiCommand

namespace Binary64

/-- Whether a number is canonical is decided by comparing its two parts with their bounds. -/
instance (x : Binary64) : Decidable x.Canonical := inferInstanceAs (Decidable (_ ∧ _))

/-! ## Division -/

/-- The rounded quotient is the nearest integer, and the even one of two. -/
theorem roundDiv_eq {num den s : Nat} (hden : 0 < den) (hlow : (s : ℚ) - 1 / 2 ≤ num / den)
    (hhigh : (num / den : ℚ) ≤ s + 1 / 2)
    (hodd : s % 2 = 1 → (s : ℚ) - 1 / 2 < num / den ∧ (num / den : ℚ) < s + 1 / 2) :
    roundDiv num den = s := by
  have hden' : (0 : ℚ) < den := Nat.cast_pos.mpr hden
  -- The bounds without fractions.
  have hlow' : 2 * (s * den) ≤ 2 * num + den := by
    rw [le_div_iff₀ hden'] at hlow
    exact_mod_cast (by linarith : (2 : ℚ) * (s * den) ≤ 2 * num + den)
  have hhigh' : 2 * num ≤ 2 * (s * den) + den := by
    rw [div_le_iff₀ hden'] at hhigh
    exact_mod_cast (by linarith : (2 : ℚ) * num ≤ 2 * (s * den) + den)
  have hodd' : s % 2 = 1 → 2 * (s * den) < 2 * num + den ∧ 2 * num < 2 * (s * den) + den := by
    intro hs
    obtain ⟨hlow, hhigh⟩ := hodd hs
    rw [lt_div_iff₀ hden'] at hlow
    rw [div_lt_iff₀ hden'] at hhigh
    constructor
    · exact_mod_cast (by linarith : (2 : ℚ) * (s * den) < 2 * num + den)
    · exact_mod_cast (by linarith : (2 : ℚ) * num < 2 * (s * den) + den)
  have hdiv := Nat.div_add_mod' num den
  have hmod := Nat.mod_lt num hden
  unfold roundDiv
  dsimp only
  generalize num / den = q at hdiv ⊢
  generalize num % den = r at hdiv hmod ⊢
  -- They leave only the quotient and the next integer.
  obtain rfl | rfl : s = q ∨ s = q + 1 := by
    have hupper : s < q + 2 := by
      refine Nat.lt_of_mul_lt_mul_right (a := den) ?_
      rw [Nat.add_mul]
      omega
    have hlower : q < s + 1 := by
      refine Nat.lt_of_mul_lt_mul_right (a := den) ?_
      rw [Nat.add_mul]
      omega
    omega
  · split_ifs <;> omega
  · rw [Nat.add_mul] at hlow' hhigh' hodd'
    split_ifs <;> omega

/-! ## Exponents -/

/-- A number with the exponent may be nearest to the positive real. -/
structure HasExponent (r : ℚ) (e : Int) : Prop where
  least : minExponent ≤ e
  lt : r < 2 ^ (e + 53)
  le : e = minExponent ∨ (2 : ℚ) ^ (e + 52) ≤ r

/-- No exponent that fits is above another one: if it is not the least, its significand is full. -/
theorem HasExponent.le_of {r : ℚ} {d e : Int} (hd : HasExponent r d) (he : HasExponent r e) :
    d ≤ e := by
  rcases hd.le with rfl | hle
  · exact he.least
  · have hlt : (2 : ℚ) ^ (d + 52) < 2 ^ (e + 53) := hle.trans_lt he.lt
    have := (zpow_lt_zpow_iff_right₀ (one_lt_two (α := ℚ))).mp hlt
    omega

/-- At most one exponent fits a positive real. -/
theorem HasExponent.eq {r : ℚ} {d e : Int} (hd : HasExponent r d) (he : HasExponent r e) : d = e :=
  le_antisymm (hd.le_of he) (he.le_of hd)

theorem scaleDown_pos (num : Nat) {den : Nat} (hden : 0 < den) (e : Int) :
    0 < (scaleDown num den e).2 := by
  unfold scaleDown
  split
  · exact Nat.mul_pos hden (Nat.pow_pos two_pos)
  · exact hden

/-- Scaling divides by the power of two. -/
theorem scaleDown_div (num den : Nat) (e : Int) :
    ((scaleDown num den e).1 / (scaleDown num den e).2 : ℚ) = num / den / 2 ^ e := by
  unfold scaleDown
  split
  next he =>
    lift e to Nat using he
    simp [div_div]
  next he =>
    obtain ⟨n, rfl⟩ : ∃ n : Nat, e = -n := ⟨(-e).toNat, by omega⟩
    simp [div_eq_mul_inv]
    ring

/-- The logarithms leave a factor of two on either side. -/
theorem log2_bounds {num den : Nat} (hnum : num ≠ 0) (hden : den ≠ 0) :
    (2 : ℚ) ^ ((num.log2 : Int) - den.log2 - 1) < num / den ∧
      (num / den : ℚ) < 2 ^ ((num.log2 : Int) - den.log2 + 1) := by
  have hden' : (0 : ℚ) < den := by exact_mod_cast Nat.pos_of_ne_zero hden
  have hnumLow : (2 : ℚ) ^ (num.log2 : Int) ≤ num := by exact_mod_cast Nat.log2_self_le hnum
  have hnumHigh : (num : ℚ) < 2 ^ ((num.log2 : Int) + 1) := by
    exact_mod_cast Nat.lt_log2_self (n := num)
  have hdenLow : (2 : ℚ) ^ (den.log2 : Int) ≤ den := by exact_mod_cast Nat.log2_self_le hden
  have hdenHigh : (den : ℚ) < 2 ^ ((den.log2 : Int) + 1) := by
    exact_mod_cast Nat.lt_log2_self (n := den)
  constructor
  · rw [lt_div_iff₀ hden']
    calc (2 : ℚ) ^ ((num.log2 : Int) - den.log2 - 1) * den
        < 2 ^ ((num.log2 : Int) - den.log2 - 1) * 2 ^ ((den.log2 : Int) + 1) := by gcongr
      _ = 2 ^ (num.log2 : Int) := by rw [← zpow_add₀ two_ne_zero]; congr 1; ring
      _ ≤ num := hnumLow
  · rw [div_lt_iff₀ hden']
    calc (num : ℚ) < 2 ^ ((num.log2 : Int) + 1) := hnumHigh
      _ = 2 ^ ((num.log2 : Int) - den.log2 + 1) * 2 ^ (den.log2 : Int) := by
        rw [← zpow_add₀ two_ne_zero]; congr 1; ring
      _ ≤ 2 ^ ((num.log2 : Int) - den.log2 + 1) * den := by gcongr

/-- The exponent that rounding takes is the one that the format has for the ratio. -/
theorem hasExponent_ratioExponent {num den : Nat} (hnum : num ≠ 0) (hden : den ≠ 0) :
    HasExponent (num / den) (ratioExponent num den) := by
  obtain ⟨hlow, hhigh⟩ := log2_bounds hnum hden
  unfold ratioExponent
  dsimp only
  generalize hg : (num.log2 : Int) - den.log2 - 52 = guess
  have hpos := scaleDown_pos num (Nat.pos_of_ne_zero hden) guess
  have hdiv := scaleDown_div num den guess
  generalize scaleDown num den guess = r at hpos hdiv
  -- The quotient tells on which side of the next power of two the ratio is.
  have hside : r.1 / r.2 < Nat.pow 2 52 ↔ (num / den : ℚ) < 2 ^ (guess + 52) := by
    have hscaled : (num / den : ℚ) < 2 ^ (guess + 52) ↔ (r.1 / r.2 : ℚ) < 2 ^ 52 := by
      rw [hdiv, div_lt_iff₀ (zpow_pos two_pos guess), zpow_add₀ two_ne_zero, mul_comm]
      rfl
    rw [hscaled, Nat.div_lt_iff_lt_mul hpos, div_lt_iff₀ (Nat.cast_pos.mpr hpos), Nat.pow_eq]
    norm_cast
  have hmax : ∀ e : Int, (num / den : ℚ) < 2 ^ (e + 53) → (2 : ℚ) ^ (e + 52) ≤ num / den →
      HasExponent (num / den) (max minExponent e) := by
    intro e hlt hle
    refine ⟨le_max_left _ _, hlt.trans_le ?_, ?_⟩
    · exact zpow_le_zpow_right₀ one_le_two (by omega)
    · rcases max_choice minExponent e with heq | heq <;> rw [heq]
      · exact .inl rfl
      · exact .inr hle
  rw [show (num.log2 : Int) - den.log2 - 1 = guess + 51 by omega] at hlow
  rw [show (num.log2 : Int) - den.log2 + 1 = guess + 53 by omega] at hhigh
  split
  next hlt =>
    refine hmax (guess - 1) ?_ ?_
    · rw [show guess - 1 + 53 = guess + 52 by ring]
      exact hside.mp hlt
    · rw [show guess - 1 + 52 = guess + 51 by ring]
      exact hlow.le
  next hge => exact hmax guess hhigh (not_lt.mp fun h => hge (hside.mpr h))

/-! ## Intervals -/

/-- How far the interval of a number reaches down, in units of its last place. Below a power of two
the spacing of the numbers halves. -/
def lowerReach (x : Binary64) : ℚ :=
  if x.significand = Nat.pow 2 52 ∧ x.exponent ≠ minExponent then 1 / 4 else 1 / 2

/-- The positive real is nearer to the magnitude of the number than to its neighbours, or halfway
and the number has an even significand. -/
structure Attracts (x : Binary64) (r : ℚ) : Prop where
  low : (x.significand - x.lowerReach) * 2 ^ x.exponent ≤ r
  high : r ≤ (x.significand + 1 / 2) * 2 ^ x.exponent
  odd : x.significand % 2 = 1 → (x.significand - x.lowerReach) * 2 ^ x.exponent < r ∧
    r < (x.significand + 1 / 2) * 2 ^ x.exponent

section Attracts

variable {x : Binary64} (hx : x.Canonical) (hzero : x.significand ≠ 0) {r : ℚ}
  (h : x.Attracts r)

/-- No interval reaches down further than half a unit in the last place. -/
theorem lowerReach_le (x : Binary64) : x.lowerReach ≤ 1 / 2 := by
  unfold lowerReach
  split <;> norm_num

theorem lowerReach_pos (x : Binary64) : 0 < x.lowerReach := by
  unfold lowerReach
  split <;> norm_num

include hzero h in
/-- What is attracted by a number is positive. -/
theorem Attracts.pos : 0 < r := by
  have hone : (1 : ℚ) ≤ x.significand := by exact_mod_cast Nat.one_le_iff_ne_zero.mpr hzero
  have hreach := x.lowerReach_le
  have hlow := h.low
  have hpositive : 0 < (x.significand - x.lowerReach) * (2 : ℚ) ^ x.exponent := by
    have : 0 < (x.significand - x.lowerReach : ℚ) := by linarith
    positivity
  exact hpositive.trans_le hlow

include hx h in
/-- No number in the interval is too large for the exponent. -/
theorem Attracts.lt : r < 2 ^ (x.exponent + 53) := by
  have hlt : (x.significand + 1 / 2 : ℚ) < 2 ^ 53 := by
    have : (x.significand : ℚ) + 1 ≤ 2 ^ 53 := by exact_mod_cast hx.1
    linarith
  calc r ≤ (x.significand + 1 / 2) * 2 ^ x.exponent := h.high
    _ < 2 ^ 53 * 2 ^ x.exponent := by gcongr
    _ = 2 ^ (x.exponent + 53) := by rw [zpow_add₀ two_ne_zero, mul_comm]; rfl

include hx h in
/-- Only the numbers below a power of two have a smaller exponent, and they are in the last quarter
of the last place in front of it. -/
theorem Attracts.hasExponent : HasExponent r x.exponent ∨
    x.significand = Nat.pow 2 52 ∧ HasExponent r (x.exponent - 1) := by
  by_cases hnormal : x.exponent = minExponent ∨ (2 : ℚ) ^ (x.exponent + 52) ≤ r
  · exact .inl ⟨hx.2.1, h.lt hx, hnormal⟩
  · obtain ⟨hexponent, hr⟩ := not_or.mp hnormal
    rw [not_le] at hr
    have hleast := hx.2.1
    have hsignificand : 2 ^ 52 ≤ x.significand := hx.2.2.2.resolve_left hexponent
    -- The next greater significand reaches down only to the power of two.
    have heq : x.significand = Nat.pow 2 52 := by
      by_contra hne
      have hnext : (2 : ℚ) ^ 52 + 1 ≤ x.significand := by
        exact_mod_cast (Nat.lt_of_le_of_ne hsignificand (Ne.symm hne))
      have hreach := x.lowerReach_le
      refine absurd hr (not_lt.mpr ?_)
      calc (2 : ℚ) ^ (x.exponent + 52) = 2 ^ 52 * 2 ^ x.exponent := by
            rw [zpow_add₀ two_ne_zero, mul_comm]; rfl
        _ ≤ (x.significand - x.lowerReach) * 2 ^ x.exponent := by gcongr; linarith
        _ ≤ r := h.low
    have hreach : x.lowerReach = 1 / 4 := if_pos ⟨heq, hexponent⟩
    refine .inr ⟨heq, by omega, ?_, .inr ?_⟩
    · rw [show x.exponent - 1 + 53 = x.exponent + 52 by ring]
      exact hr
    · calc (2 : ℚ) ^ (x.exponent - 1 + 52) = 2 ^ 51 * 2 ^ x.exponent := by
            rw [show x.exponent - 1 + 52 = 51 + x.exponent by ring, zpow_add₀ two_ne_zero]; rfl
        _ ≤ (x.significand - x.lowerReach) * 2 ^ x.exponent := by
            gcongr
            rw [heq, hreach]
            norm_num
        _ ≤ r := h.low

end Attracts

/-! ## Rounding -/

/-- At the exponent of the number, rounding gives its significand. -/
theorem roundDiv_of_attracts {x : Binary64} {num den : Nat} (hden : 0 < den)
    (h : x.Attracts (num / den * 2 ^ x.exponent)) : roundDiv num den = x.significand := by
  have hunit : (0 : ℚ) < 2 ^ x.exponent := by positivity
  have hreach := x.lowerReach_le
  have hlow : (x.significand - x.lowerReach : ℚ) ≤ num / den :=
    le_of_mul_le_mul_right h.low hunit
  refine roundDiv_eq hden (by linarith) (le_of_mul_le_mul_right h.high hunit) fun hodd => ?_
  obtain ⟨hlow, hhigh⟩ := h.odd hodd
  have hlow := lt_of_mul_lt_mul_right hlow hunit.le
  exact ⟨by linarith, lt_of_mul_lt_mul_right hhigh hunit.le⟩

/-- At the exponent below that of a power of two, rounding goes up to the power of two. -/
theorem roundDiv_of_attracts_below {x : Binary64} {num den : Nat} (hden : 0 < den)
    (hsignificand : x.significand = Nat.pow 2 52) (hexponent : x.exponent ≠ minExponent)
    (h : x.Attracts (num / den * 2 ^ (x.exponent - 1)))
    (hlt : (num / den * 2 ^ (x.exponent - 1) : ℚ) < 2 ^ (x.exponent - 1 + 53)) :
    roundDiv num den = Nat.pow 2 53 := by
  have hunit : (0 : ℚ) < 2 ^ (x.exponent - 1) := by positivity
  have hreach : x.lowerReach = 1 / 4 := if_pos ⟨hsignificand, hexponent⟩
  refine roundDiv_eq hden ?_ ?_ (fun hodd => absurd hodd (by decide))
  · refine le_of_mul_le_mul_right (le_trans (le_of_eq ?_) h.low) hunit
    rw [hsignificand, hreach, zpow_sub_one₀ two_ne_zero]
    push_cast [Nat.pow_eq]
    ring
  · rw [zpow_add₀ two_ne_zero, mul_comm ((2 : ℚ) ^ (x.exponent - 1))] at hlt
    refine (lt_of_mul_lt_mul_right hlt hunit.le).le.trans ?_
    norm_num

/-- Rounding a ratio in the interval of a number gives the number. -/
theorem ofRatio_of_attracts {x : Binary64} (hx : x.Canonical) (hzero : x.significand ≠ 0)
    {num den : Nat} (hden : den ≠ 0) (h : x.Attracts (num / den)) (negative : Bool) :
    ofRatio negative num den = some (x.withSign negative) := by
  have hnum : num ≠ 0 := by
    rintro rfl
    simpa using h.pos hzero
  have hexponent := hasExponent_ratioExponent hnum hden
  unfold ofRatio
  rw [if_neg hnum]
  dsimp only
  generalize ratioExponent num den = e at hexponent
  have hpos := scaleDown_pos num (Nat.pos_of_ne_zero hden) e
  have hscaled : (num / den : ℚ) = (scaleDown num den e).1 / (scaleDown num den e).2 * 2 ^ e := by
    rw [scaleDown_div, div_mul_cancel₀ _ (by positivity)]
  generalize scaleDown num den e = r at hpos hscaled
  rcases h.hasExponent hx with hsame | ⟨hsignificand, hbelow⟩
  · obtain rfl := hexponent.eq hsame
    rw [hscaled] at h
    rw [roundDiv_of_attracts hpos h, if_neg (Nat.ne_of_lt hx.1)]
    dsimp only
    rw [if_neg (not_lt.mpr hx.2.2.1)]
    rfl
  · obtain rfl := hexponent.eq hbelow
    have hexponent : x.exponent ≠ minExponent := by
      have := hbelow.least
      omega
    have hlt := hbelow.lt
    rw [hscaled] at h hlt
    -- Rounding up to the next power of two moves the exponent.
    rw [roundDiv_of_attracts_below hpos hsignificand hexponent h hlt, if_pos rfl]
    dsimp only
    rw [if_neg (by have := hx.2.2.1; omega)]
    simp [withSign, hsignificand]

/-! ## Ratios -/

/-- The value of a ratio. -/
def ratioValue (r : Nat × Nat) : ℚ := r.1 / r.2

/-- Ratios compare as their values do. -/
theorem compareRatio_ne_gt_iff {a b : Nat × Nat} (ha : 0 < a.2) (hb : 0 < b.2) :
    compareRatio a b ≠ .gt ↔ ratioValue a ≤ ratioValue b := by
  rw [compareRatio, Nat.compare_ne_gt, ratioValue, ratioValue,
    div_le_div_iff₀ (Nat.cast_pos.mpr ha) (Nat.cast_pos.mpr hb)]
  norm_cast

/-- The same for strict comparison. -/
theorem compareRatio_eq_lt_iff {a b : Nat × Nat} (ha : 0 < a.2) (hb : 0 < b.2) :
    compareRatio a b = .lt ↔ ratioValue a < ratioValue b := by
  rw [compareRatio, Nat.compare_eq_lt, ratioValue, ratioValue,
    div_lt_div_iff₀ (Nat.cast_pos.mpr ha) (Nat.cast_pos.mpr hb)]
  norm_cast

theorem quarters_pos (x : Binary64) (count : Nat) : 0 < (x.quarters count).2 := by
  unfold quarters
  dsimp only
  split
  · exact Nat.one_pos
  · exact Nat.pow_pos two_pos

/-- The value of a count of quarters of the unit in the last place. -/
theorem ratioValue_quarters (x : Binary64) (count : Nat) :
    ratioValue (x.quarters count) = count / 4 * 2 ^ x.exponent := by
  have hquarter : (2 : ℚ) ^ x.exponent = 4 * 2 ^ (x.exponent - 2) := by
    rw [show x.exponent = 2 + (x.exponent - 2) by ring, zpow_add₀ two_ne_zero]
    norm_num
  rw [hquarter]
  unfold quarters ratioValue
  dsimp only
  generalize x.exponent - 2 = e
  split
  next he =>
    lift e to Nat using he
    simp
    ring
  next he =>
    obtain ⟨n, rfl⟩ : ∃ n : Nat, e = -n := ⟨(-e).toNat, by omega⟩
    simp [div_eq_mul_inv]
    ring

/-- The upper end of the interval lies half a unit above the number. -/
theorem ratioValue_upperEnd (x : Binary64) :
    ratioValue x.upperEnd = (x.significand + 1 / 2) * 2 ^ x.exponent := by
  rw [upperEnd, ratioValue_quarters]
  push_cast
  ring

/-- The lower end lies a half or, below a power of two, a quarter of a unit below. -/
theorem ratioValue_lowerEnd {x : Binary64} (hzero : x.significand ≠ 0) :
    ratioValue x.lowerEnd = (x.significand - x.lowerReach) * 2 ^ x.exponent := by
  have hone := Nat.one_le_iff_ne_zero.mpr hzero
  unfold lowerEnd lowerReach
  dsimp only
  split
  · rw [ratioValue_quarters, Nat.cast_sub (by omega)]
    push_cast
    ring
  · rw [ratioValue_quarters, Nat.cast_sub (by omega)]
    push_cast
    ring

/-- Comparing with the ends of the interval decides whether a ratio is inside. -/
theorem roundsTo_iff {x : Binary64} (hzero : x.significand ≠ 0) {r : Nat × Nat} (hr : 0 < r.2) :
    x.roundsTo r ↔ x.Attracts (ratioValue r) := by
  have hlowPos : 0 < x.lowerEnd.2 := quarters_pos x _
  have hhighPos : 0 < x.upperEnd.2 := quarters_pos x _
  unfold roundsTo
  dsimp only
  split
  next heven =>
    rw [Bool.and_eq_true, bne_iff_ne, bne_iff_ne, compareRatio_ne_gt_iff hlowPos hr,
      compareRatio_ne_gt_iff hr hhighPos, ratioValue_lowerEnd hzero, ratioValue_upperEnd]
    exact ⟨fun h => ⟨h.1, h.2, fun hodd => by omega⟩, fun h => ⟨h.low, h.high⟩⟩
  next hodd =>
    rw [Bool.and_eq_true, beq_iff_eq, beq_iff_eq, compareRatio_eq_lt_iff hlowPos hr,
      compareRatio_eq_lt_iff hr hhighPos, ratioValue_lowerEnd hzero, ratioValue_upperEnd]
    exact ⟨fun h => ⟨h.1.le, h.2.le, fun _ => h⟩, fun h => h.odd (by omega)⟩

end Binary64

end ApiCommand
