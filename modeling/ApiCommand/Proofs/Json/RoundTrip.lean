import ApiCommand.Proofs.Dict
import ApiCommand.Proofs.Json.StringLiteral
import ApiCommand.Proofs.Text.Numeral
import Mathlib.Algebra.Ring.Int.Defs

/-!
# The text of a value is read back

Reading goes along writing: what was written in front of a rest is read, and the rest is left.
-/

namespace ApiCommand.Json

open Text

/-! ## Numbers -/

/-- The text goes on with something else than a numeral. -/
def EndsNumber (rest : List Char) : Prop :=
  ∀ c ∈ rest.head?, ¬ c.isDigit ∧ c ≠ '.' ∧ c ≠ 'e' ∧ c ≠ 'E'

theorem EndsNumber.endsDigits {rest : List Char} (h : EndsNumber rest) : EndsDigits rest :=
  fun c hc => (h c hc).1

/-- Reading a fraction stops at what follows the numeral. -/
theorem readFraction_append {cs rest out : List Char} {fraction : Option (List Char)}
    (hrest : EndsNumber rest) (h : readFraction cs = some (fraction, out)) :
    readFraction (cs ++ rest) = some (fraction, out ++ rest) := by
  unfold readFraction at h
  split at h
  next cs =>
    dsimp only at h
    split at h
    next => cases h
    next hdigits =>
      cases h
      rw [List.cons_append, readFraction, takeWhile_isDigit_append hrest.endsDigits,
        dropWhile_isDigit_append hrest.endsDigits, if_neg hdigits]
  next hpoint =>
    cases h
    unfold readFraction
    split
    -- A point that comes with the rest would go on the numeral.
    next more heq =>
      cases cs with
      | nil =>
        rw [List.nil_append] at heq
        subst heq
        exact absurd rfl (hrest '.' rfl).2.1
      | cons c cs =>
        obtain ⟨rfl, -⟩ := List.cons.inj heq
        exact absurd rfl (hpoint cs)
    next => rfl

/-- A sign is split off a text that is not empty, whatever follows. -/
theorem splitSign_append {cs rest : List Char} (hne : cs ≠ []) :
    splitSign (cs ++ rest) = ((splitSign cs).1, (splitSign cs).2 ++ rest) := by
  obtain ⟨c, cs, rfl⟩ := List.exists_cons_of_ne_nil hne
  rw [List.cons_append]
  unfold splitSign
  split
  next heq => cases heq; rfl
  next heq => cases heq; rfl
  next hminus hplus =>
    split
    next heq => cases heq; exact absurd rfl (hminus _)
    next heq => cases heq; exact absurd rfl (hplus _)
    next => rfl

/-- Reading an exponent stops at what follows the numeral. -/
theorem readExponent_append {cs rest out : List Char} {exponent : Option Int}
    (hrest : EndsNumber rest) (h : readExponent cs = some (exponent, out)) :
    readExponent (cs ++ rest) = some (exponent, out ++ rest) := by
  unfold readExponent at h
  split at h
  next c cs =>
    split at h
    next hmark =>
      -- Behind the mark there is at least a digit.
      have hne : cs ≠ [] := by
        rintro rfl
        cases h
      rw [List.cons_append, readExponent, if_pos hmark, splitSign_append hne]
      dsimp only at h ⊢
      rw [takeWhile_isDigit_append hrest.endsDigits, dropWhile_isDigit_append hrest.endsDigits]
      obtain ⟨n, hn, heq⟩ := Option.map_eq_some_iff.mp h
      rw [hn]
      cases heq
      rfl
    next hmark =>
      cases h
      rw [List.cons_append, readExponent, if_neg hmark]
  next =>
    cases h
    cases rest with
    | nil => rfl
    | cons c rest =>
      obtain ⟨-, -, hlower, hupper⟩ := hrest c rfl
      rw [List.nil_append, readExponent, if_neg (not_or.mpr ⟨hlower, hupper⟩)]

/-- A numeral without its sign, and whether there is one. -/
def splitMinus (cs : List Char) : Bool × List Char :=
  match cs with
  | '-' :: rest => (true, rest)
  | cs => (false, cs)

/-- The digits in front of the point: a zero is the only one. -/
def wholePart (cs : List Char) : List Char :=
  match cs with
  | '0' :: _ => ['0']
  | cs => cs.takeWhile Char.isDigit

/-- Reads a number behind its sign. -/
def readMagnitude (negative : Bool) (cs : List Char) : Option (Number × List Char) :=
  let whole := wholePart cs
  let rest := cs.drop whole.length
  if whole.isEmpty || (whole == ['0'] && rest.head?.any Char.isDigit) then none
  else do
    let (fraction, rest) ← readFraction rest
    let (exponent, rest) ← readExponent rest
    let n ← assemble negative whole fraction exponent
    some (n, rest)

theorem readNumber_eq (cs : List Char) :
    readNumber cs = readMagnitude (splitMinus cs).1 (splitMinus cs).2 := rfl

/-- Reading a whole part stops at what follows the digits. -/
theorem wholePart_append {cs rest : List Char} (hrest : EndsDigits rest) :
    wholePart (cs ++ rest) = wholePart cs := by
  cases cs with
  | nil =>
    cases rest with
    | nil => rfl
    | cons c rest =>
      have hc := hrest c rfl
      unfold wholePart
      split
      next heq => cases heq; exact absurd rfl hc
      next => exact takeWhile_isDigit_append hrest []
  | cons c cs =>
    unfold wholePart
    split
    next heq => cases heq; rfl
    next hzero =>
      split
      next heq => cases heq; exact absurd rfl (hzero _)
      next => exact takeWhile_isDigit_append hrest (c :: cs)

/-- A whole part is no longer than the text it is taken from. -/
theorem length_wholePart_le (cs : List Char) : (wholePart cs).length ≤ cs.length := by
  unfold wholePart
  split
  next => simp
  next => exact (List.takeWhile_sublist _).length_le

/-- What follows a numeral does not change how it is read. -/
theorem readMagnitude_append {negative : Bool} {cs rest out : List Char} {n : Number}
    (hrest : EndsNumber rest) (h : readMagnitude negative cs = some (n, out)) :
    readMagnitude negative (cs ++ rest) = some (n, out ++ rest) := by
  unfold readMagnitude at h ⊢
  dsimp only at h ⊢
  rw [wholePart_append hrest.endsDigits, List.drop_append_of_le_length (length_wholePart_le cs)]
  -- No digit comes with the rest, so that a zero in front is refused or accepted as before.
  have hhead : ((cs.drop (wholePart cs).length ++ rest).head?.any Char.isDigit) =
      (cs.drop (wholePart cs).length).head?.any Char.isDigit := by
    cases cs.drop (wholePart cs).length with
    | nil =>
      cases rest with
      | nil => rfl
      | cons c rest => simpa using (hrest c rfl).1
    | cons c cs => rfl
  rw [hhead]
  split at h
  next => cases h
  next hdigits =>
    rw [if_neg hdigits]
    obtain ⟨⟨fraction, behind⟩, hfraction, h⟩ := Option.bind_eq_some_iff.mp h
    obtain ⟨⟨exponent, left⟩, hexponent, h⟩ := Option.bind_eq_some_iff.mp h
    obtain ⟨m, hm, h⟩ := Option.bind_eq_some_iff.mp h
    cases h
    simp [readFraction_append hrest hfraction, readExponent_append hrest hexponent, hm]

/-- Reading a number stops at what follows the numeral. -/
theorem readNumber_append {cs rest out : List Char} {n : Number} (hrest : EndsNumber rest)
    (h : readNumber cs = some (n, out)) : readNumber (cs ++ rest) = some (n, out ++ rest) := by
  rw [readNumber_eq] at h ⊢
  have hne : cs ≠ [] := by
    rintro rfl
    cases h
  have hsplit : splitMinus (cs ++ rest) = ((splitMinus cs).1, (splitMinus cs).2 ++ rest) := by
    obtain ⟨c, cs, rfl⟩ := List.exists_cons_of_ne_nil hne
    unfold splitMinus
    split
    next heq => cases heq; rfl
    next hminus =>
      split
      next heq => cases heq; exact absurd rfl (hminus _)
      next => rfl
  rw [hsplit]
  exact readMagnitude_append hrest h

/-- All digits of a number that fits 64 bits are taken. -/
theorem accumulate_eq {start : Nat} {digits : List Char}
    (h : Nat.ofDigitChars 10 digits start < Nat.pow 2 64) :
    accumulate start digits = (Nat.ofDigitChars 10 digits start, digits.length) := by
  induction digits generalizing start with
  | nil => rfl
  | cons c rest ih =>
    rw [Nat.ofDigitChars_cons] at h
    have hnext : 10 * start + (c.toNat - '0'.toNat) < Nat.pow 2 64 := by
      refine Nat.lt_of_le_of_lt ?_ h
      rw [Nat.ofDigitChars_eq_ofDigitChars_zero]
      exact (Nat.le_mul_of_pos_left _ (Nat.pow_pos (by decide))).trans (Nat.le_add_right _ _)
    rw [accumulate]
    simp only [if_pos hnext, ih h, Nat.ofDigitChars_cons, List.length_cons]

/-- The digits of an integer of 64 bits are assembled to this integer. -/
theorem assemble_toDigits {negative : Bool} {n : Nat} (hn : n < 2 ^ 64)
    (hnegative : negative = true → 0 < n ∧ n ≤ 2 ^ 63) :
    assemble negative (Nat.toDigits 10 n) none none =
      some (.int (if negative then -(n : Int) else n)) := by
  have hvalue : Nat.ofDigitChars 10 (Nat.toDigits 10 n) 0 = n := Nat.ofDigitChars_ten_toDigits
  have haccumulate := @accumulate_eq 0 (Nat.toDigits 10 n) (by rwa [hvalue])
  rw [hvalue] at haccumulate
  unfold assemble
  rw [haccumulate]
  dsimp only
  rw [if_pos]
  refine ⟨by simp, ?_⟩
  split
  next h => exact hnegative h
  next => trivial

/-- All digits of a number that is written are its whole part. -/
theorem wholePart_toDigits (n : Nat) : wholePart (Nat.toDigits 10 n) = Nat.toDigits 10 n := by
  unfold wholePart
  split
  next rest heq => rw [heq, eq_nil_of_toDigits heq]
  next => exact List.takeWhile_eq_self_iff.mpr isDigit_of_mem_toDigits

/-- The digits of an integer of 64 bits are read as this integer. -/
theorem readMagnitude_toDigits {negative : Bool} {n : Nat} (hn : n < 2 ^ 64)
    (hnegative : negative = true → 0 < n ∧ n ≤ 2 ^ 63) :
    readMagnitude negative (Nat.toDigits 10 n) =
      some (.int (if negative then -(n : Int) else n), []) := by
  unfold readMagnitude
  dsimp only
  rw [wholePart_toDigits, List.drop_length, List.isEmpty_eq_false_iff.mpr Nat.toDigits_ne_nil]
  simp [readFraction, readExponent, assemble_toDigits hn hnegative]

/-- Digits are no minus. -/
theorem splitMinus_toDigits (n : Nat) :
    splitMinus (Nat.toDigits 10 n) = (false, Nat.toDigits 10 n) := by
  unfold splitMinus
  split
  next rest heq =>
    have hminus := isDigit_of_mem_toDigits (n := n) '-' (heq ▸ List.mem_cons_self)
    exact absurd hminus (by decide)
  next => rfl

/-- An integer of 64 bits, signed or unsigned, is read back. -/
theorem readNumber_intChars {n : Int} (hlow : -2 ^ 63 ≤ n) (hhigh : n < 2 ^ 64) :
    readNumber (intChars n) = some (.int n, []) := by
  rw [readNumber_eq]
  unfold intChars
  split
  next hneg =>
    change readMagnitude true (Nat.toDigits 10 n.natAbs) = _
    rw [readMagnitude_toDigits (by omega) (fun _ => by omega), if_pos rfl,
      show -(n.natAbs : Int) = n by omega]
  next hpos =>
    rw [splitMinus_toDigits]
    dsimp only
    rw [readMagnitude_toDigits (by omega) (fun h => absurd h Bool.false_ne_true),
      if_neg Bool.false_ne_true, show (n.natAbs : Int) = n by omega]

/-- The number is read from its own text: an integer if it fits 64 bits, signed or unsigned, and a
floating-point number if reading, which rounds twice, gets there. -/
def ReadsBack (n : Number) : Prop :=
  match n with
  | .int i => -2 ^ 63 ≤ i ∧ i < 2 ^ 64
  | .float x => readNumber (numberChars (.float x)) = some (.float x, [])

/-- Each number that reads back does so from its own text. -/
theorem readNumber_numberChars {n : Number} (h : ReadsBack n) :
    readNumber (numberChars n) = some (n, []) := by
  cases n with
  | int i => exact readNumber_intChars h.1 h.2
  | float x => exact h

/-! ## Strings -/

/-- What is written between quotes is read back. -/
theorem readString_escaped (cs rest : List Char) :
    readString (cs.flatMap escapeChar ++ '"' :: rest) = some (cs, rest) :=
  readString_eq_some_iff.mpr ⟨_, literal_escaped cs, by simp⟩

/-! ## Values -/

/-- The value is nested at most `depth` deep, and nothing in it stands in the way of reading its
text back: each number is read back, and the members of objects form dictionaries. -/
inductive Readable : Nat → Json → Prop
  | null {depth : Nat} : Readable depth null
  | bool {depth : Nat} (value : Bool) : Readable depth (bool value)
  | number {depth : Nat} {n : Number} (hread : ReadsBack n) : Readable depth (number n)
  | string {depth : Nat} (text : String) : Readable depth (string text)
  | array {depth : Nat} {items : List Json} (hitems : ∀ v ∈ items, Readable depth v) :
      Readable (depth + 1) (array items)
  | object {depth : Nat} {members : List (String × Json)} (hsorted : Dict.Sorted members)
      (hmembers : ∀ e ∈ members, Readable depth e.2) : Readable (depth + 1) (object members)

/-- A numeral begins with a minus or a digit. -/
theorem head_of_readNumber {cs rest : List Char} {n : Number} (h : readNumber cs = some (n, rest)) :
    ∃ c more, cs = c :: more ∧ (c = '-' ∨ c.isDigit) := by
  rw [readNumber_eq] at h
  cases cs with
  | nil => cases h
  | cons c cs =>
    -- Without a sign and without digits, there is no number.
    refine ⟨c, cs, rfl, ?_⟩
    by_contra hnot
    obtain ⟨hminus, hdigit⟩ := not_or.mp hnot
    have hsplit : splitMinus (c :: cs) = (false, c :: cs) := by
      unfold splitMinus
      split
      next heq => cases heq; exact absurd rfl hminus
      next => rfl
    have hwhole : wholePart (c :: cs) = [] := by
      unfold wholePart
      split
      next heq => cases heq; exact absurd rfl hdigit
      next => exact List.takeWhile_cons_of_neg hdigit
    rw [hsplit, readMagnitude] at h
    simp only [hwhole, List.isEmpty_nil, Bool.true_or, if_true] at h
    cases h

/-- A numeral does not start with a blank. -/
theorem isBlank_of_numeral {c : Char} (hc : c = '-' ∨ c.isDigit) : isBlank c = false := by
  rw [Bool.eq_false_iff]
  intro hblank
  simp only [isBlank, Bool.or_eq_true, beq_iff_eq] at hblank
  rcases hblank with ((rfl | rfl) | rfl) | rfl <;> exact absurd hc (by decide)

theorem skipBlanks_cons {c : Char} (hc : isBlank c = false) (cs : List Char) :
    skipBlanks (c :: cs) = c :: cs :=
  List.dropWhile_cons_of_neg (by rw [hc]; decide)

/-- A value that starts with a numeral is this number. -/
theorem readValue_number {fuel depth : Nat} {cs rest : List Char} {n : Number}
    (h : readNumber cs = some (n, rest)) :
    readValue (fuel + 1) depth cs = some (number n, rest) := by
  obtain ⟨c, more, rfl, hc⟩ := head_of_readNumber h
  rw [readValue, skipBlanks_cons (isBlank_of_numeral hc)]
  -- No other value begins like a numeral.
  split
  case h_7 => rw [h]; rfl
  all_goals
    rename_i heq
    cases heq
    exact absurd hc (by decide)

mutual

/-- Writing does not take anything away from the rest. -/
theorem length_le_writeOnto (v : Json) (rest : List Char) :
    rest.length ≤ (writeOnto v rest).length := by
  match v with
  | .null | .bool true | .bool false | .array [] | .object [] =>
    simp only [writeOnto, List.length_cons]
    omega
  | .number n | .string s =>
    rw [writeOnto, List.length_append]
    omega
  | .array (x :: xs) =>
    have hx := length_le_writeOnto x (writeItems xs rest)
    have hxs := length_lt_writeItems xs rest
    rw [writeOnto, List.length_cons]
    omega
  | .object ((k, x) :: xs) =>
    have hx := length_le_writeOnto x (writeMembers xs rest)
    have hxs := length_lt_writeMembers xs rest
    rw [writeOnto, List.length_cons, List.length_append, List.length_cons]
    omega

/-- Writing items makes a text longer. -/
theorem length_lt_writeItems (xs : List Json) (rest : List Char) :
    rest.length < (writeItems xs rest).length := by
  match xs with
  | [] => exact Nat.lt_succ_self _
  | x :: xs =>
    have hx := length_le_writeOnto x (writeItems xs rest)
    have hxs := length_lt_writeItems xs rest
    rw [writeItems, List.length_cons]
    omega

/-- Writing members makes a text longer. -/
theorem length_lt_writeMembers (xs : List (String × Json)) (rest : List Char) :
    rest.length < (writeMembers xs rest).length := by
  match xs with
  | [] => exact Nat.lt_succ_self _
  | (k, x) :: xs =>
    have hx := length_le_writeOnto x (writeMembers xs rest)
    have hxs := length_lt_writeMembers xs rest
    rw [writeMembers, List.length_cons, List.length_append, List.length_cons]
    omega

end

/-- What is written of the items that are left ends a numeral. -/
theorem endsNumber_writeItems (xs : List Json) (rest : List Char) :
    EndsNumber (writeItems xs rest) := by
  cases xs <;> (rintro c ⟨⟩; decide)

/-- What is written of the members that are left ends a numeral. -/
theorem endsNumber_writeMembers (xs : List (String × Json)) (rest : List Char) :
    EndsNumber (writeMembers xs rest) := by
  match xs with
  | [] => rintro c ⟨⟩; decide
  | (k, x) :: xs => rintro c ⟨⟩; decide

/-- What is written begins with something else than a blank or the end of an array. -/
theorem Readable.head_writeOnto {depth : Nat} {v : Json} (h : Readable depth v)
    (rest : List Char) :
    ∃ c more, writeOnto v rest = c :: more ∧ isBlank c = false ∧ c ≠ ']' := by
  cases h with
  | null => exact ⟨_, _, rfl, by decide, by decide⟩
  | bool value => cases value <;> exact ⟨_, _, rfl, by decide, by decide⟩
  | number hread =>
    obtain ⟨c, more, heq, hc⟩ := head_of_readNumber (readNumber_numberChars hread)
    refine ⟨c, more ++ rest, by rw [writeOnto, heq]; rfl, isBlank_of_numeral hc, ?_⟩
    rintro rfl
    exact absurd hc (by decide)
  | string text => exact ⟨_, _, rfl, by decide, by decide⟩
  | @array _ items => cases items <;> exact ⟨_, _, rfl, by decide, by decide⟩
  | @object _ members =>
    match members with
    | [] => exact ⟨_, _, rfl, by decide, by decide⟩
    | (k, x) :: xs => exact ⟨_, _, rfl, by decide, by decide⟩

/-- Something is written in front of the rest. -/
theorem Readable.length_lt_writeOnto {depth : Nat} {v : Json} (h : Readable depth v)
    (rest : List Char) : rest.length < (writeOnto v rest).length := by
  cases h with
  | null =>
    simp only [writeOnto, List.length_cons]
    omega
  | bool value =>
    cases value <;>
    · simp only [writeOnto, List.length_cons]
      omega
  | number hread =>
    -- The text of a number has a first character, as nothing is read from an empty text.
    obtain ⟨c, more, heq, -⟩ := head_of_readNumber (readNumber_numberChars hread)
    rw [writeOnto, heq, List.cons_append, List.length_cons, List.length_append]
    omega
  | string text =>
    rw [writeOnto, stringChars, List.cons_append, List.length_cons, List.length_append]
    omega
  | @array _ items =>
    cases items with
    | nil =>
      simp only [writeOnto, List.length_cons]
      omega
    | cons x xs =>
      have hx := length_le_writeOnto x (writeItems xs rest)
      have hxs := length_lt_writeItems xs rest
      rw [writeOnto, List.length_cons]
      omega
  | @object _ members =>
    match members with
    | [] =>
      simp only [writeOnto, List.length_cons]
      omega
    | (k, x) :: xs =>
      have hx := length_le_writeOnto x (writeMembers xs rest)
      have hxs := length_lt_writeMembers xs rest
      rw [writeOnto, List.length_cons, List.length_append, List.length_cons]
      omega

/-- With enough fuel, a value that was written in front of a rest is read. -/
def ReadsValues (fuel : Nat) : Prop :=
  ∀ {depth : Nat} {v : Json} {rest : List Char}, Readable depth v → EndsNumber rest →
    2 * (writeOnto v rest).length ≤ fuel + 2 * rest.length →
      readValue fuel depth (writeOnto v rest) = some (v, rest)

/-- `ReadsValues` for the items of an array. -/
def ReadsItems (fuel : Nat) : Prop :=
  ∀ {depth : Nat} {x : Json} {xs : List Json} {rest : List Char},
    (∀ v ∈ x :: xs, Readable depth v) →
    2 * (writeOnto x (writeItems xs rest)).length ≤ fuel + 2 * rest.length →
      readItems fuel depth (writeOnto x (writeItems xs rest)) = some (x :: xs, rest)

/-- `ReadsValues` for the members of an object. -/
def ReadsMembers (fuel : Nat) : Prop :=
  ∀ {depth : Nat} {e : String × Json} {xs : List (String × Json)} {rest : List Char},
    (∀ e' ∈ e :: xs, Readable depth e'.2) →
    2 * (stringChars e.1 ++ ':' :: writeOnto e.2 (writeMembers xs rest)).length ≤
      fuel + 2 * rest.length →
      readMembers fuel depth (stringChars e.1 ++ ':' :: writeOnto e.2 (writeMembers xs rest)) =
        some (e :: xs, rest)

/-- Every text that is written is too long to be read without fuel. -/
theorem readsValues_zero : ReadsValues 0 := by
  intro depth v rest h _ hfuel
  have hlt := h.length_lt_writeOnto rest
  omega

/-- Values are read with one more unit of fuel than what is inside of them. -/
theorem readsValues_succ {fuel : Nat} (hitems : ReadsItems fuel) (hmembers : ReadsMembers fuel) :
    ReadsValues (fuel + 1) := by
  intro depth v rest h hrest hfuel
  cases h with
  | null => rfl
  | bool value => cases value <;> rfl
  | number hread => exact readValue_number (readNumber_append hrest (readNumber_numberChars hread))
  | string text =>
    have hread := readString_escaped text.toList rest
    rw [writeOnto, stringChars, List.cons_append, List.append_assoc, List.singleton_append,
      readValue, skipBlanks_cons (by decide)]
    simp only [hread]
    simp
  | @array depth items hreadable =>
    cases items with
    | nil => rfl
    | cons x xs =>
      have hread : readItems fuel depth (writeOnto x (writeItems xs rest)) = some (x :: xs, rest) :=
        hitems hreadable (by rw [writeOnto, List.length_cons] at hfuel; omega)
      -- The first item does not begin with the end of the array.
      obtain ⟨c, more, heq, hblank, hend⟩ :=
        (hreadable x List.mem_cons_self).head_writeOnto (writeItems xs rest)
      rw [heq] at hread
      rw [writeOnto, heq, readValue, skipBlanks_cons (by decide)]
      simp only [skipBlanks_cons hblank]
      split
      next heq => cases heq; exact absurd rfl hend
      next => rw [hread]; rfl
  | @object depth members hsorted hreadable =>
    cases members with
    | nil => rfl
    | cons e xs =>
      obtain ⟨k, x⟩ := e
      have hread : readMembers fuel depth
          (stringChars k ++ ':' :: writeOnto x (writeMembers xs rest)) =
            some ((k, x) :: xs, rest) :=
        @hmembers depth (k, x) xs rest hreadable
          (by rw [writeOnto, List.length_cons] at hfuel; dsimp only; omega)
      have hquote : ∀ cs, skipBlanks (stringChars k ++ cs) = stringChars k ++ cs :=
        fun cs => skipBlanks_cons (by decide) _
      rw [writeOnto, readValue, skipBlanks_cons (by decide)]
      simp only [hquote]
      split
      next heq => cases heq
      next =>
        rw [hread]
        simp [ofMembers, Dict.ofList_of_sorted hsorted]

/-- Items are read with one more unit of fuel than the first value and the others. -/
theorem readsItems_succ {fuel : Nat} (hvalues : ReadsValues fuel) (hitems : ReadsItems fuel) :
    ReadsItems (fuel + 1) := by
  intro depth x xs rest h hfuel
  obtain ⟨hx, hxs⟩ := List.forall_mem_cons.mp h
  have hlength := length_le_writeOnto x (writeItems xs rest)
  have hlength' := length_lt_writeItems xs rest
  have hitem := hvalues hx (endsNumber_writeItems xs rest) (by omega)
  rw [readItems, hitem]
  cases xs with
  | nil => rfl
  | cons y ys =>
    have hcons : (writeItems (y :: ys) rest).length =
        (writeOnto y (writeItems ys rest)).length + 1 := by
      rw [writeItems, List.length_cons]
    have hmore : readItems fuel depth (writeOnto y (writeItems ys rest)) = some (y :: ys, rest) :=
      hitems hxs (by omega)
    rw [writeItems]
    simp [skipBlanks_cons, isBlank, hmore]

/-- Members are read with one more unit of fuel than the first value and the others. -/
theorem readsMembers_succ {fuel : Nat} (hvalues : ReadsValues fuel) (hmembers : ReadsMembers fuel) :
    ReadsMembers (fuel + 1) := by
  rintro depth ⟨k, x⟩ xs rest h hfuel
  obtain ⟨hx, hxs⟩ := List.forall_mem_cons.mp h
  -- The texts of the value and of the members behind it are shorter, so that fuel is left for both.
  have hlength := length_le_writeOnto x (writeMembers xs rest)
  have hlength' := length_lt_writeMembers xs rest
  rw [List.length_append, List.length_cons] at hfuel
  dsimp only at hfuel ⊢
  have hkey := readString_escaped k.toList (':' :: writeOnto x (writeMembers xs rest))
  have hitem := @hvalues depth x _ hx (endsNumber_writeMembers xs rest) (by omega)
  rw [stringChars, List.cons_append, List.append_assoc, List.singleton_append, readMembers,
    skipBlanks_cons (by decide)]
  simp only [hkey, Option.bind_eq_bind, Option.bind_some]
  rw [skipBlanks_cons (by decide)]
  simp only [hitem, Option.bind_some]
  cases xs with
  | nil => simp [writeMembers, skipBlanks_cons, isBlank]
  | cons e ys =>
    have hcons : (writeMembers (e :: ys) rest).length =
        (stringChars e.1 ++ ':' :: writeOnto e.2 (writeMembers ys rest)).length + 1 := by
      rw [writeMembers, List.length_cons]
    have hmore := @hmembers depth e ys rest hxs (by omega)
    rw [writeMembers]
    simp [skipBlanks_cons, isBlank, hmore]

/-- Reading goes along writing. -/
theorem reads_all (fuel : Nat) : ReadsValues fuel ∧ ReadsItems fuel ∧ ReadsMembers fuel := by
  -- Each of the readers calls the others with one unit less. Two units for each character that is
  -- written are enough.
  induction fuel with
  | zero =>
    refine ⟨readsValues_zero, ?_, ?_⟩
    · intro depth x xs rest _ hfuel
      have hx := length_le_writeOnto x (writeItems xs rest)
      have hxs := length_lt_writeItems xs rest
      omega
    · intro depth e xs rest _ hfuel
      have hx := length_le_writeOnto e.2 (writeMembers xs rest)
      have hxs := length_lt_writeMembers xs rest
      rw [List.length_append, List.length_cons] at hfuel
      omega
  | succ fuel ih =>
    obtain ⟨hvalues, hitems, hmembers⟩ := ih
    exact ⟨readsValues_succ hitems hmembers, readsItems_succ hvalues hitems,
      readsMembers_succ hvalues hmembers⟩

/-- The text of a value is read back as the value. -/
theorem parse?_text {v : Json} (h : Readable maxDepth v) : parse? (text v) = some v := by
  have hread : readValue (2 * (writeOnto v []).length + 2) maxDepth (writeOnto v []) =
      some (v, []) :=
    (reads_all _).1 h (by rintro c ⟨⟩) (by omega)
  rw [parse?, text, String.toList_ofList, parseWithin?, hread]
  rfl

end ApiCommand.Json
