import ApiCommand.Flag.Positional
import Mathlib.Data.List.Basic

/-!
# Positional arguments and indices

The slices of flags and arguments that binding works with are always in range: with all indices
checked, binding does what it does without the checks (`bindPositionals?_eq`).
-/

namespace ApiCommand

/-! ## Binding with checked indices -/

/-- The items from one index up to another one; none if these are out of range or out of order. -/
def slice? {α : Type} (xs : List α) (first last : Nat) : Option (List α) :=
  if first ≤ last ∧ last ≤ xs.length then some ((xs.drop first).take (last - first)) else none

/-- The difference of two numbers; none if it is negative. -/
def sub? (m n : Nat) : Option Nat := if n ≤ m then some (m - n) else none

/-- Indices that are in order and in range select a part of the list. -/
theorem slice?_eq {α : Type} {xs : List α} {first last : Nat} (h : first ≤ last)
    (h' : last ≤ xs.length) : slice? xs first last = some ((xs.drop first).take (last - first)) :=
  if_pos ⟨h, h'⟩

theorem sub?_eq {m n : Nat} (h : n ≤ m) : sub? m n = some (m - n) := if_pos h

namespace FlagSet

/-- `bindExpanding` with all indices checked; none if one of them is out of range. -/
def bindExpanding? (host : Host) (s : FlagSet) (k : Nat) (args : List String) :
    Option (FlagSet × List Issue) := do
  let leading ← slice? s.positionals 0 (min k args.length)
  let first ← slice? args 0 (min k args.length)
  let (s₁, issues₁) := s.setEachIfUnset host (leading.zip first)
  let behind ← sub? (← sub? s.positionals.length k) 1
  match (sub? args.length behind).filter (k ≤ ·) with
  | none => some (s₁, issues₁)
  | some start =>
    let trailing ← slice? s.positionals (k + 1) s.positionals.length
    let last ← slice? args start args.length
    let (s₂, issues₂) := s₁.setEachIfUnset host (trailing.zip last)
    let middle ← slice? args k start
    let slot ← s.positionals[k]?
    let (s₃, issues₃) := s₂.setEach host (middle.map fun arg => (slot, arg))
    some (s₃, issues₁ ++ issues₂ ++ issues₃)

/-- `bindPositionals` with all indices checked; none if one of them is out of range. -/
def bindPositionals? (host : Host) (s : FlagSet) (args : List String) :
    Option (FlagSet × List Issue) :=
  match s.expandSlot.index? with
  | some k => s.bindExpanding? host k args
  | none => some (s.bindFixed host args)

/-- If there are too few arguments for all flags behind the slot, then only those before it get
any. -/
theorem bindExpanding_of_length_lt (host : Host) (s : FlagSet) {k : Nat} {args : List String}
    (hfew : args.length < k + (s.positionals.length - k - 1)) :
    s.bindExpanding host k args = s.setEachIfUnset host ((s.positionals.take k).zip args) := by
  have hlength : (s.positionals.drop (k + 1)).length = s.positionals.length - k - 1 := by
    rw [List.length_drop]
    omega
  simp only [bindExpanding, hlength, if_neg (Nat.not_le.mpr hfew)]

/-- If there are enough arguments, then the flags behind the slot get the last ones, and the slot
those in between. -/
theorem bindExpanding_of_le (host : Host) (s : FlagSet) {k : Nat} {args : List String}
    (henough : k + (s.positionals.length - k - 1) ≤ args.length) {slot : Nat}
    (hslot : s.positionals[k]? = some slot) :
    s.bindExpanding host k args =
      let behind := s.positionals.length - k - 1
      let (s₁, issues₁) := s.setEachIfUnset host ((s.positionals.take k).zip args)
      let (s₂, issues₂) := s₁.setEachIfUnset host
        ((s.positionals.drop (k + 1)).zip (args.drop (args.length - behind)))
      let (s₃, issues₃) := s₂.setEach host
        (((args.drop k).take (args.length - k - behind)).map fun arg => (slot, arg))
      (s₃, issues₁ ++ issues₂ ++ issues₃) := by
  have hlength : (s.positionals.drop (k + 1)).length = s.positionals.length - k - 1 := by
    rw [List.length_drop]
    omega
  have hstart : k + (args.length - k - (s.positionals.length - k - 1)) =
      args.length - (s.positionals.length - k - 1) := by omega
  simp only [bindExpanding, hlength, if_pos henough, List.length_drop, List.drop_drop, hstart,
    hslot, Option.toList_some, List.flatMap_singleton]

/-- Below the number of positional flags, no index is out of range. -/
theorem bindExpanding?_eq (host : Host) {s : FlagSet} {k : Nat} (hk : k < s.positionals.length)
    (args : List String) : s.bindExpanding? host k args = some (s.bindExpanding host k args) := by
  have hslot : s.positionals[k]? = some s.positionals[k] := List.getElem?_eq_getElem hk
  -- The slices are what `take` and `drop` leave, as all of their bounds are in range.
  have hleading : (s.positionals.take (min k args.length)).zip (args.take (min k args.length)) =
      (s.positionals.take k).zip args := by
    rw [@List.zip_eq_zip_take_min _ _ (s.positionals.take k) args, List.length_take,
      Nat.min_eq_left (Nat.le_of_lt hk), List.take_take, Nat.min_eq_left (Nat.min_le_left _ _)]
  have htrailing : (s.positionals.drop (k + 1)).take (s.positionals.length - (k + 1)) =
      s.positionals.drop (k + 1) := by
    rw [← List.length_drop, List.take_length]
  have hlast : ∀ start, (args.drop start).take (args.length - start) = args.drop start := by
    intro start
    rw [← List.length_drop, List.take_length]
  simp only [bindExpanding?, Option.bind_eq_bind, slice?_eq (Nat.zero_le _) (Nat.min_le_right _ _),
    slice?_eq (Nat.zero_le _) (Nat.le_trans (Nat.min_le_left k args.length) (Nat.le_of_lt hk)),
    sub?_eq (Nat.le_of_lt hk), sub?_eq (show 1 ≤ s.positionals.length - k by omega),
    Option.bind_some, List.drop_zero, Nat.sub_zero, hleading]
  by_cases henough : k + (s.positionals.length - k - 1) ≤ args.length
  · -- With enough arguments, the last ones start behind those for the flags before the slot.
    have hstart : (sub? args.length (s.positionals.length - k - 1)).filter (k ≤ ·) =
        some (args.length - (s.positionals.length - k - 1)) := by
      rw [sub?_eq (by omega), Option.filter_some, if_pos (decide_eq_true (by omega))]
    have hmiddle : args.length - (s.positionals.length - k - 1) - k =
        args.length - k - (s.positionals.length - k - 1) := by omega
    rw [bindExpanding_of_le host s henough hslot]
    simp only [hstart, slice?_eq hk (Nat.le_refl _), htrailing, Option.bind_some,
      slice?_eq (Nat.sub_le _ _) (Nat.le_refl args.length), hlast,
      slice?_eq (Nat.le_sub_of_add_le henough) (Nat.sub_le _ _), hmiddle, hslot]
  · -- With too few, the start would be in front of the end, or negative.
    have hstart : (sub? args.length (s.positionals.length - k - 1)).filter (k ≤ ·) = none := by
      rw [sub?]
      split
      · rw [Option.filter_some, if_neg (by simpa using by omega)]
      · rfl
    rw [bindExpanding_of_length_lt host s (Nat.not_le.mp henough)]
    simp only [hstart]

/-- The expanding slot is one of the positional flags. -/
theorem lt_of_expandSlot {s : FlagSet} {k : Nat} (h : s.expandSlot.index? = some k) :
    k < s.positionals.length := by
  unfold expandSlot at h
  split at h
  next => cases h
  next index hindex =>
    cases h
    have hmem := List.mem_singleton_self k
    rw [← hindex, List.mem_filter, List.mem_range] at hmem
    exact hmem.1
  next => cases h

/-- No index is out of range when positional arguments are bound. -/
theorem bindPositionals?_eq (host : Host) (s : FlagSet) (args : List String) :
    s.bindPositionals? host args = some (s.bindPositionals host args) := by
  unfold bindPositionals? bindPositionals
  cases h : s.expandSlot.index? with
  | none => rfl
  | some k => exact bindExpanding?_eq host (lt_of_expandSlot h) args

end FlagSet

end ApiCommand
