import ApiCommand.Command.Line
import Mathlib.Tactic.SplitIfs

/-!
# Histories of flag sets

Everything that is ever done to the flags of a command is giving texts to them, one after another.
`given_trySet` lists what one such step can do, and `Reachable.preserves` lifts what a step
preserves to all states that setting flags, binding positional arguments and applying command lines
lead to.
-/

namespace ApiCommand

namespace FlagSet

/-! ## What a step can do -/

/-- What giving the text `raw` to the flag with number `id` can lead to. -/
inductive Given (host : Host) (s : FlagSet) (id : Nat) (raw : String) :
    FlagSet × List Issue → Prop
  /-- The help word only leaves a mark. -/
  | help (hraw : raw = helpWord) :
      Given host s id raw
        (s.modify id fun f => { f with helpRequested := true, changed := true }, [])
  /-- There is no such flag. -/
  | unknown (hraw : raw ≠ helpWord) (hflag : s.flag? id = none) : Given host s id raw (s, [])
  /-- An external flag takes every text. -/
  | external {f : Flag} {e : External} (hraw : raw ≠ helpWord) (hflag : s.flag? id = some f)
      (hrole : f.role = .external e) :
      Given host s id raw
        (s.modify id fun f =>
          { f with value := some (nextExternal e f.value raw), changed := true }, [])
  /-- The value that is read is written at the place of the flag. -/
  | stored {f : Flag} {p : Place} {v : Json} (hraw : raw ≠ helpWord)
      (hflag : s.flag? id = some f) (hrole : f.role = .place p)
      (hdecode : p.schema.decode host (s.value? id) raw = .ok v) :
      Given host s id raw (s.store f p v, [])
  /-- A text that cannot be read leaves the flags as they are. -/
  | refused {f : Flag} {p : Place} {fault : DecodeFault} (hraw : raw ≠ helpWord)
      (hflag : s.flag? id = some f) (hrole : f.role = .place p)
      (hdecode : p.schema.decode host (s.value? id) raw = .error fault) :
      Given host s id raw (s, [.invalid f.name fault.message])

/-- Giving a text to a flag has one of these outcomes. -/
theorem given_trySet (host : Host) (s : FlagSet) (id : Nat) (raw : String) :
    Given host s id raw (s.trySet host id raw) := by
  unfold trySet set
  by_cases hraw : raw = helpWord
  · rw [if_pos hraw]
    exact .help hraw
  rw [if_neg hraw]
  cases hflag : s.flag? id with
  | none => exact .unknown hraw hflag
  | some f =>
    cases hrole : f.role with
    | external e => simpa only [hrole] using Given.external hraw hflag hrole
    | place p =>
      simp only [hrole]
      cases hdecode : p.schema.decode host (s.value? id) raw with
      | ok v => exact .stored hraw hflag hrole hdecode
      | error fault => exact .refused hraw hflag hrole hdecode

/-! ## From a step to a run -/

section Runs

variable {host : Host} {P : FlagSet → Prop} {admitted : String → Prop}
  (hset : ∀ s id raw, admitted raw → P s → P (s.trySet host id raw).1)

include hset

/-- What one setting keeps, a list of settings keeps. -/
theorem setEach_preserves {s : FlagSet} (entries : List (Nat × String))
    (hentries : ∀ e ∈ entries, admitted e.2) (hs : P s) : P (s.setEach host entries).1 := by
  induction entries generalizing s with
  | nil => exact hs
  | cons e rest ih =>
    obtain ⟨hhead, hrest⟩ := List.forall_mem_cons.mp hentries
    exact ih hrest (hset s e.1 e.2 hhead hs)

/-- What one setting keeps, filling unset flags keeps. -/
theorem setEachIfUnset_preserves {s : FlagSet} (entries : List (Nat × String))
    (hentries : ∀ e ∈ entries, admitted e.2) (hs : P s) :
    P (s.setEachIfUnset host entries).1 := by
  induction entries generalizing s with
  | nil => exact hs
  | cons e rest ih =>
    obtain ⟨hhead, hrest⟩ := List.forall_mem_cons.mp hentries
    have hnext : P (s.setIfUnset host e.1 e.2).1 := by
      unfold setIfUnset
      split
      · exact hset s e.1 e.2 hhead hs
      · exact hs
    exact ih hrest hnext

/-- What one setting keeps, binding arguments one to one keeps. -/
theorem bindFixed_preserves {s : FlagSet} (args : List String)
    (hargs : ∀ arg ∈ args, admitted arg) (hs : P s) : P (s.bindFixed host args).1 := by
  have hbound := setEach_preserves hset ((s.positionals.filter s.isUnset).zip args)
    (fun e he => hargs _ (List.of_mem_zip he).2) hs
  simp only [bindFixed]
  split_ifs <;> assumption

/-- What one setting keeps, sharing arguments around an array keeps. -/
theorem bindExpanding_preserves {s : FlagSet} (k : Nat) (args : List String)
    (hargs : ∀ arg ∈ args, admitted arg) (hs : P s) : P (s.bindExpanding host k args).1 := by
  simp only [bindExpanding]
  have hleading := setEachIfUnset_preserves hset ((s.positionals.take k).zip args)
    (fun e he => hargs _ (List.of_mem_zip he).2) hs
  split
  · refine setEach_preserves hset _ (fun e he => ?_)
      (setEachIfUnset_preserves hset _ (fun e he => ?_) hleading)
    -- The arguments in the middle.
    · simp only [List.mem_flatMap, List.mem_map] at he
      obtain ⟨_, _, arg, harg, rfl⟩ := he
      exact hargs _ (List.mem_of_mem_drop (List.mem_of_mem_take harg))
    -- The arguments at the end.
    · exact hargs _ (List.mem_of_mem_drop (List.mem_of_mem_drop (List.of_mem_zip he).2))
  · exact hleading

/-- What giving an admitted text preserves, binding admitted arguments preserves. -/
theorem bindPositionals_preserves {s : FlagSet} (args : List String)
    (hargs : ∀ arg ∈ args, admitted arg) (hs : P s) : P (s.bindPositionals host args).1 := by
  unfold bindPositionals
  split
  · exact bindExpanding_preserves hset _ args hargs hs
  · exact bindFixed_preserves hset args hargs hs

/-- What giving an admitted text preserves, a command line of admitted texts preserves. -/
theorem applyLine_preserves {s : FlagSet} (line : CommandLine)
    (hoccurrences : ∀ e ∈ line.occurrences, admitted e.2)
    (hpositionals : ∀ arg ∈ line.positionals, admitted arg) (hs : P s) :
    P (s.applyLine host line).1 :=
  bindPositionals_preserves hset line.positionals hpositionals
    (setEach_preserves hset line.occurrences hoccurrences hs)

end Runs

/-- The flag sets that setting flags, binding positional arguments and applying command lines lead
to, whether these succeed or not. Files may change from one step to the next. -/
inductive Reachable (start : FlagSet) : FlagSet → Prop
  | start : Reachable start start
  | set {s : FlagSet} (host : Host) (id : Nat) (raw : String) :
      Reachable start s → Reachable start (s.trySet host id raw).1
  | bind {s : FlagSet} (host : Host) (args : List String) :
      Reachable start s → Reachable start (s.bindPositionals host args).1
  | apply {s : FlagSet} (host : Host) (line : CommandLine) :
      Reachable start s → Reachable start (s.applyLine host line).1

/-- What giving a text to a flag preserves holds of all flag sets that are reached. -/
theorem Reachable.preserves {P : FlagSet → Prop} {start s : FlagSet}
    (hset : ∀ host s id raw, P s → P (trySet host s id raw).1)
    (hstart : P start) (h : Reachable start s) : P s := by
  have hset' : ∀ host s id raw, True → P s → P (trySet host s id raw).1 :=
    fun host s id raw _ => hset host s id raw
  induction h with
  | start => exact hstart
  | set host id raw _ ih => exact hset host _ id raw ih
  | bind host args _ ih =>
    exact bindPositionals_preserves (hset' host) args (fun _ _ => trivial) ih
  | apply host line _ ih =>
    exact applyLine_preserves (hset' host) line (fun _ _ => trivial) (fun _ _ => trivial) ih

end FlagSet

end ApiCommand
