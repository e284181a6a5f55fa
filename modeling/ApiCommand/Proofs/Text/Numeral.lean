import ApiCommand.Text.Numeral
import Mathlib.Algebra.Ring.Nat
import Mathlib.Data.List.TakeWhile

/-!
# Reading numerals

The digits of a natural number are read as the number (`natural?_toDigits`). A decimal numeral is
taken apart at its point and at its exponent mark (`decimal?_eq`).
-/

namespace ApiCommand.Text

/-- The text goes on with something else than a digit. -/
def EndsDigits (rest : List Char) : Prop := ∀ c ∈ rest.head?, ¬ c.isDigit

section Digits

variable {rest : List Char} (hrest : EndsDigits rest)

include hrest

/-- Digits in front are the same whatever follows, if it is no digit. -/
theorem takeWhile_isDigit_append (cs : List Char) :
    (cs ++ rest).takeWhile Char.isDigit = cs.takeWhile Char.isDigit := by
  induction cs with
  | nil =>
    cases rest with
    | nil => rfl
    | cons c rest => exact List.takeWhile_cons_of_neg (hrest c rfl)
  | cons c cs ih => rw [List.cons_append, List.takeWhile_cons, List.takeWhile_cons, ih]

/-- What is behind the digits goes on with what follows. -/
theorem dropWhile_isDigit_append (cs : List Char) :
    (cs ++ rest).dropWhile Char.isDigit = cs.dropWhile Char.isDigit ++ rest := by
  induction cs with
  | nil =>
    cases rest with
    | nil => rfl
    | cons c rest => exact List.dropWhile_cons_of_neg (hrest c rfl)
  | cons c cs ih =>
    rw [List.cons_append, List.dropWhile_cons, List.dropWhile_cons, ih]
    split <;> rfl

variable {digits : List Char} (hdigits : ∀ c ∈ digits, c.isDigit)

include hdigits

theorem takeWhile_isDigit : (digits ++ rest).takeWhile Char.isDigit = digits := by
  rw [takeWhile_isDigit_append hrest, List.takeWhile_eq_self_iff.mpr hdigits]

theorem dropWhile_isDigit : (digits ++ rest).dropWhile Char.isDigit = rest := by
  rw [dropWhile_isDigit_append hrest, List.dropWhile_eq_nil_iff.mpr hdigits, List.nil_append]

end Digits

theorem isDigit_of_mem_toDigits {n : Nat} : ∀ c ∈ Nat.toDigits 10 n, c.isDigit :=
  fun _ hc => Nat.isDigit_of_mem_toDigits (by decide) le_rfl hc

theorem isDigit_of_mem_replicate_zero {n : Nat} : ∀ c ∈ List.replicate n '0', c.isDigit := by
  intro c hc
  rw [List.eq_of_mem_replicate hc]
  decide

theorem isDigit_of_mem_singleton_zero : ∀ c ∈ ['0'], c.isDigit :=
  List.forall_mem_singleton.mpr rfl

/-- The digits of a number denote the number. -/
theorem digitsValue_toDigits (n : Nat) : digitsValue (Nat.toDigits 10 n) = n :=
  Nat.ofDigitChars_ten_toDigits

/-- Digits in front of others count for a power of ten each. -/
theorem digitsValue_append (xs ys : List Char) :
    digitsValue (xs ++ ys) = 10 ^ ys.length * digitsValue xs + digitsValue ys :=
  (Nat.ofDigitChars_append 0).trans Nat.ofDigitChars_eq_ofDigitChars_zero

theorem digitsValue_replicate_zero (n : Nat) : digitsValue (List.replicate n '0') = 0 :=
  Nat.ofDigitChars_replicate_zero.trans (Nat.mul_zero _)

/-- Zero is the only number whose digits begin with a zero. -/
theorem eq_nil_of_toDigits {n : Nat} {rest : List Char} (h : Nat.toDigits 10 n = '0' :: rest) :
    rest = [] := by
  induction n using Nat.strong_induction_on generalizing rest with
  | _ n ih =>
    rw [Nat.toDigits_eq_if (by decide)] at h
    split at h
    next => exact (List.cons.inj h).2.symm
    next hlarge =>
      obtain ⟨c, front, hfront⟩ := List.exists_cons_of_ne_nil (Nat.toDigits_ne_nil (n := n / 10))
      rw [hfront, List.cons_append] at h
      obtain ⟨rfl, -⟩ := List.cons.inj h
      obtain rfl := ih (n / 10) (by omega) hfront
      have hvalue := digitsValue_toDigits (n / 10)
      rw [hfront, show digitsValue ['0'] = 0 from rfl] at hvalue
      omega

/-- Digits that may stand in front of a point: there is one, and a zero is the only one. -/
structure IsWhole (cs : List Char) : Prop where
  ne_nil : cs ≠ []
  isDigit : ∀ c ∈ cs, c.isDigit
  zero : ∀ rest, cs = '0' :: rest → rest = []

theorem isWhole_zero : IsWhole ['0'] where
  ne_nil := List.cons_ne_nil _ _
  isDigit := isDigit_of_mem_singleton_zero
  zero := fun _ h => (List.cons.inj h).2.symm

/-- Decimal digits of a number have no zero in front of others. -/
theorem isWhole_toDigits (n : Nat) : IsWhole (Nat.toDigits 10 n) where
  ne_nil := Nat.toDigits_ne_nil
  isDigit := isDigit_of_mem_toDigits
  zero := fun _ h => eq_nil_of_toDigits h

/-- The first digits of a whole part are one. -/
theorem IsWhole.take {cs : List Char} (h : IsWhole cs) (n : Nat) : IsWhole (cs.take (n + 1)) := by
  obtain ⟨c, cs, rfl⟩ := List.exists_cons_of_ne_nil h.ne_nil
  refine ⟨List.cons_ne_nil _ _, fun d hd => h.isDigit d (List.mem_of_mem_take hd), ?_⟩
  intro rest heq
  rw [List.take_succ_cons] at heq
  obtain ⟨rfl, rfl⟩ := List.cons.inj heq
  rw [h.zero cs rfl, List.take_nil]

/-- Zeros may be appended to the digits of a positive number. -/
theorem isWhole_toDigits_append {n : Nat} (hn : n ≠ 0) (count : Nat) :
    IsWhole (Nat.toDigits 10 n ++ List.replicate count '0') where
  ne_nil := List.append_ne_nil_of_left_ne_nil Nat.toDigits_ne_nil _
  isDigit := List.forall_mem_append.mpr ⟨isDigit_of_mem_toDigits, isDigit_of_mem_replicate_zero⟩
  zero := by
    intro rest heq
    obtain ⟨c, cs, hcs⟩ := List.exists_cons_of_ne_nil (Nat.toDigits_ne_nil (n := n))
    rw [hcs, List.cons_append] at heq
    obtain ⟨rfl, -⟩ := List.cons.inj heq
    have hvalue := digitsValue_toDigits n
    rw [hcs, eq_nil_of_toDigits hcs] at hvalue
    exact absurd hvalue.symm hn

theorem natural?_eq_some_iff {cs : List Char} {n : Nat} :
    natural? cs = some n ↔ cs ≠ [] ∧ (∀ c ∈ cs, c.isDigit) ∧ digitsValue cs = n := by
  simp [natural?, and_assoc]

theorem natural?_of_isDigit {digits : List Char} (hne : digits ≠ [])
    (hdigits : ∀ c ∈ digits, c.isDigit) : natural? digits = some (digitsValue digits) :=
  natural?_eq_some_iff.mpr ⟨hne, hdigits, rfl⟩

theorem natural?_toDigits (n : Nat) : natural? (Nat.toDigits 10 n) = some n := by
  rw [natural?_of_isDigit Nat.toDigits_ne_nil isDigit_of_mem_toDigits, digitsValue_toDigits]

/-- Digits have no sign. -/
theorem splitSign_of_isDigit {digits rest : List Char} (hne : digits ≠ [])
    (hdigits : ∀ c ∈ digits, c.isDigit) : splitSign (digits ++ rest) = (false, digits ++ rest) := by
  obtain ⟨c, cs, rfl⟩ := List.exists_cons_of_ne_nil hne
  have hc := hdigits c List.mem_cons_self
  unfold splitSign
  split
  next heq =>
    cases heq
    exact absurd hc (by decide)
  next heq =>
    cases heq
    exact absurd hc (by decide)
  next => rfl

/-- The digits of a number have no sign. -/
theorem splitSign_toDigits (n : Nat) :
    splitSign (Nat.toDigits 10 n) = (false, Nat.toDigits 10 n) := by
  have h := @splitSign_of_isDigit (Nat.toDigits 10 n) [] Nat.toDigits_ne_nil
    isDigit_of_mem_toDigits
  rwa [List.append_nil] at h

/-- A number is made of its sign and its magnitude. -/
theorem signed_natAbs (n : Int) :
    (if decide (n < 0) then -(n.natAbs : Int) else n.natAbs) = n := by
  by_cases hneg : n < 0
  · rw [decide_eq_true hneg, if_pos rfl]
    omega
  · rw [decide_eq_false hneg, if_neg Bool.false_ne_true]
    omega

/-- The sign of a number; only a minus is written. -/
def signChars (negative : Bool) : List Char := if negative then ['-'] else []

/-- A sign that was written is split off again. -/
theorem splitSign_signChars {digits rest : List Char} (hne : digits ≠ [])
    (hdigits : ∀ c ∈ digits, c.isDigit) (negative : Bool) :
    splitSign (signChars negative ++ (digits ++ rest)) = (negative, digits ++ rest) := by
  cases negative with
  | false =>
    rw [signChars, if_neg Bool.false_ne_true, List.nil_append]
    exact splitSign_of_isDigit hne hdigits
  | true => rfl

section Decimal

variable {whole fraction mark : List Char} (hne : whole ≠ []) (hwhole : ∀ c ∈ whole, c.isDigit)
  {e : Int} (negative : Bool)

include hne hwhole

/-- A numeral with a point has a decimal place for each digit behind the point. -/
theorem decimal?_of_point (hfraction : ∀ c ∈ fraction, c.isDigit) (hmark : exponent? mark = some e)
    (hend : EndsDigits mark) :
    decimal? (signChars negative ++ (whole ++ '.' :: (fraction ++ mark))) =
      Binary64.ofDecimal negative (digitsValue (whole ++ fraction)) (e - fraction.length) := by
  have hpoint : EndsDigits ('.' :: (fraction ++ mark)) := by
    rintro c ⟨⟩
    decide
  unfold decimal?
  rw [splitSign_signChars hne hwhole]
  simp only [takeWhile_isDigit hpoint hwhole, dropWhile_isDigit hpoint hwhole,
    takeWhile_isDigit hend hfraction, dropWhile_isDigit hend hfraction, hmark]
  simp [hne]

/-- A numeral may have an exponent mark and no point. -/
theorem decimal?_of_mark (hmark : exponent? ('e' :: mark) = some e) :
    decimal? (signChars negative ++ (whole ++ 'e' :: mark)) =
      Binary64.ofDecimal negative (digitsValue whole) e := by
  have hend : EndsDigits ('e' :: mark) := by
    rintro c ⟨⟩
    decide
  unfold decimal?
  rw [splitSign_signChars hne hwhole]
  simp only [takeWhile_isDigit hend hwhole, dropWhile_isDigit hend hwhole]
  simp [hne, hmark]

end Decimal

end ApiCommand.Text
