import ApiCommand.Proofs.Flag.PositionalIndices
import ApiCommand.Proofs.Flag.Resolution

/-!
# What is handed to flags

Binding leaves out the positional arguments for flags that are set already. What is left, each
argument with its flag and with its index, are the `handovers`. Binding does what giving just these
to the flags does (`bindPositionals_fst`), so a whole command line does what giving one list of
entries to the flags does (`applyLine_fst`).
-/

namespace ApiCommand

namespace FlagSet

/-! ## Positional arguments -/

/-- A flag, a positional argument that is handed to it, and the index of the argument. -/
abbrev Handover := Nat × String × Nat

/-- The flag and the text that it is given. -/
def Handover.entry (h : Handover) : Nat × String := (h.1, h.2.1)

/-- What `setEachIfUnset` hands on: the arguments for flags that are unset when it is their turn. -/
def handoversIfUnset (host : Host) (s : FlagSet) (entries : List Handover) : List Handover :=
  match entries with
  | [] => []
  | h :: rest =>
    if s.isUnset h.1 then h :: handoversIfUnset host (s.trySet host h.1 h.2.1).1 rest
    else handoversIfUnset host s rest

/-- What `bindFixed` hands on: nothing, or all arguments. -/
def handoversFixed (s : FlagSet) (args : List (String × Nat)) : List Handover :=
  let unset := s.positionals.filter s.isUnset
  if unset.length < args.length then [] else unset.zip args

/-- What `bindExpanding` hands on. -/
def handoversExpanding (host : Host) (s : FlagSet) (k : Nat) (args : List (String × Nat)) :
    List Handover :=
  let leading := s.positionals.take k
  let trailing := s.positionals.drop (k + 1)
  let first := s.handoversIfUnset host (leading.zip args)
  if k + trailing.length ≤ args.length then
    let rest := args.drop k
    let middle := rest.take (rest.length - trailing.length)
    let last := rest.drop (rest.length - trailing.length)
    let t := (s.setEach host (first.map Handover.entry)).1
    let slot := s.positionals[k]?.toList
    first ++ t.handoversIfUnset host (trailing.zip last) ++
      slot.flatMap fun id => middle.map fun arg => (id, arg)
  else first

/-- What binding hands to flags. -/
def handovers (host : Host) (s : FlagSet) (args : List String) : List Handover :=
  match s.expandSlot.index? with
  | some k => s.handoversExpanding host k args.zipIdx
  | none => s.handoversFixed args.zipIdx

/-- Entries can be set in two parts, one after the other. -/
theorem setEach_append (host : Host) (s : FlagSet) (xs ys : List (Nat × String)) :
    s.setEach host (xs ++ ys) =
      let (t, issues) := s.setEach host xs
      let (u, more) := t.setEach host ys
      (u, issues ++ more) := by
  induction xs generalizing s with
  | nil => rfl
  | cons e xs ih => simp only [List.cons_append, setEach, ih, List.append_assoc]

theorem map_entry_zip (ids : List Nat) (args : List (String × Nat)) :
    (ids.zip args).map Handover.entry = ids.zip (args.map Prod.fst) := by
  rw [List.zip_map_right]
  rfl

/-- Filling unset flags is setting those that are unset when it is their turn. -/
theorem setEachIfUnset_eq (host : Host) (s : FlagSet) (entries : List Handover) :
    s.setEachIfUnset host (entries.map Handover.entry) =
      s.setEach host ((s.handoversIfUnset host entries).map Handover.entry) := by
  induction entries generalizing s with
  | nil => rfl
  | cons h rest ih =>
    rw [List.map_cons, handoversIfUnset, Handover.entry, setEachIfUnset]
    -- An argument for a flag that is set is dropped by both.
    by_cases hunset : s.isUnset h.1
    · rw [setIfUnset, if_pos hunset, if_pos hunset, List.map_cons, Handover.entry, setEach]
      cases s.trySet host h.1 h.2.1 with
      | mk next issues => simp only [ih]
    · rw [setIfUnset, if_neg hunset, if_neg hunset]
      simp only [ih, List.nil_append]

/-- The arguments for the flags before the slot, for those behind it and for the slot itself are
handed on one after another. -/
theorem bindExpanding_eq_setEach (host : Host) (s : FlagSet) (k : Nat)
    (args : List (String × Nat)) :
    s.bindExpanding host k (args.map Prod.fst) =
      s.setEach host ((s.handoversExpanding host k args).map Handover.entry) := by
  have hslot : ∀ middle : List (String × Nat),
      (s.positionals[k]?.toList.flatMap fun id =>
        (middle.map Prod.fst).map fun arg => (id, arg)) =
      (s.positionals[k]?.toList.flatMap fun id => middle.map fun arg => (id, arg)).map
        Handover.entry := by
    intro middle
    cases s.positionals[k]? with
    | none => rfl
    | some id =>
      rw [Option.toList_some, List.flatMap_singleton, List.flatMap_singleton, List.map_map,
        List.map_map]
      rfl
  simp only [bindExpanding, handoversExpanding, List.length_map, ← List.map_drop, ← List.map_take,
    ← map_entry_zip, hslot, setEachIfUnset_eq]
  split
  · rw [List.map_append, List.map_append, setEach_append, setEach_append]
  · rfl

/-- Either all arguments are handed on, or there is an issue with all of them. -/
theorem bindFixed_eq (host : Host) (s : FlagSet) (args : List (String × Nat)) :
    s.bindFixed host (args.map Prod.fst) =
        s.setEach host ((s.handoversFixed args).map Handover.entry) ∨
      s.handoversFixed args = [] ∧
        ∃ f : PositionalFault,
          s.bindFixed host (args.map Prod.fst) = (s, [.positional f.message]) := by
  have hunset : (s.positionals.filter s.isUnset).length ≤ s.positionals.length :=
    List.length_filter_le _ _
  by_cases hfew : (s.positionals.filter s.isUnset).length < args.length
  · -- Each of the three checks refuses all arguments.
    have hne : args ≠ [] := by
      rintro rfl
      exact absurd hfew (Nat.not_lt_zero _)
    right
    rw [handoversFixed, if_pos hfew]
    simp only [bindFixed, List.length_map, List.isEmpty_iff, List.map_eq_nil_iff, if_neg hne,
      if_pos hfew]
    refine ⟨trivial, ?_⟩
    split
    next => exact ⟨_, rfl⟩
    next => split <;> exact ⟨_, rfl⟩
  · left
    rw [handoversFixed, if_neg hfew, map_entry_zip]
    by_cases hnone : args = []
    · rw [hnone, List.map_nil, List.zip_nil_right]
      rfl
    · -- There is a flag for each argument, so none of the checks refuses them.
      have hlength : 0 < args.length := List.length_pos_iff.mpr hnone
      have hsome : s.positionals ≠ [] := List.length_pos_iff.mp (by omega)
      have hroom : ¬ s.positionals.length < args.length := by omega
      simp only [bindFixed, List.length_map, List.isEmpty_iff, List.map_eq_nil_iff, if_neg hnone,
        if_neg hsome, if_neg hroom, if_neg hfew]

/-- Binding does what giving each argument that is handed on to its flag does. -/
theorem bindPositionals_fst (host : Host) (s : FlagSet) (args : List String) :
    (s.bindPositionals host args).1 =
      (s.setEach host ((s.handovers host args).map Handover.entry)).1 := by
  have hargs : args.zipIdx.map Prod.fst = args := List.zipIdx_map_fst 0 args
  unfold bindPositionals handovers
  cases s.expandSlot.index? with
  | some k =>
    dsimp only
    rw [← bindExpanding_eq_setEach, hargs]
  | none =>
    dsimp only
    rcases bindFixed_eq host s args.zipIdx with heq | ⟨hnone, f, heq⟩
    · rw [← heq, hargs]
    · -- Nothing is handed on, and an issue leaves the flags as they are.
      rw [hargs] at heq
      rw [heq, hnone]
      rfl

/-! ## Command lines -/

/-- What a command line hands to flags: the values of flags, and then the positional arguments that
are not left out. -/
def handed (host : Host) (s : FlagSet) (line : CommandLine) : List (Nat × String) :=
  line.occurrences ++
    ((s.setEach host line.occurrences).1.handovers host line.positionals).map Handover.entry

/-- A command line does to the flags what giving them what it hands to them does. -/
theorem applyLine_fst (host : Host) (s : FlagSet) (line : CommandLine) :
    (s.applyLine host line).1 = (s.setEach host (s.handed host line)).1 := by
  rw [handed, setEach_append]
  exact bindPositionals_fst host _ line.positionals

end FlagSet

end ApiCommand
