import ApiCommand.Proofs.Command.Call
import ApiCommand.Proofs.Flag.Tree

/-!
# Rearranged command lines

A command line of tokens `--name=value` for known flags and of positional words is read argument by
argument and never refused (`read_eq_assemble`), so only two orders can matter: that of the words
and that of the tokens for one tree of flags. Two lines that agree in these lead to the same
outcome, but for the order in which values that cannot be read are reported
(`Call.prepare_of_rearranged`).
-/

namespace ApiCommand

namespace CommandLine

/-! ## Arguments that stand on their own -/

/-- What an argument says on its own. -/
inductive Argument where
  /-- A positional word. -/
  | word (text : String)
  /-- The value of a flag that the command accepts. -/
  | value (id : Nat) (text : String)

/-- What an argument is for. -/
inductive Target where
  | positional
  /-- The flags of the tree with a top. -/
  | tree (top : Nat)
  deriving DecidableEq

namespace Argument

/-- The positional word. -/
def word? (x : Argument) : Option String :=
  match x with
  | word text => some text
  | value _ _ => none

/-- The flag and its value. -/
def value? (x : Argument) : Option (Nat × String) :=
  match x with
  | value id text => some (id, text)
  | word _ => none

/-- What the argument is for. -/
def target (s : FlagSet) (x : Argument) : Target :=
  match x with
  | word _ => .positional
  | value id _ => .tree (s.top id)

end Argument

/-- Reads an argument on its own. It is a positional word, or a token `--name=value` with the name
of a flag that takes a value; anything else is none of these. -/
def argument? (s : FlagSet) (arg : String) : Option Argument :=
  match arg.toList with
  | '-' :: '-' :: body =>
    match Text.cut '=' body with
    | none => none
    | some (name, text) =>
      (acceptedFlag? s (String.ofList name)).map fun id => .value id (String.ofList text)
  | '-' :: _ :: _ => none
  | _ => some (.word arg)

/-- What an argument is for, if it stands on its own. -/
def target? (s : FlagSet) (arg : String) : Option Target :=
  (argument? s arg).map (Argument.target s)

/-- The command line that arguments make together. -/
def assemble (xs : List Argument) : CommandLine where
  occurrences := xs.filterMap Argument.value?
  positionals := xs.filterMap Argument.word?

/-- The command line with one argument more in front. -/
def withArgument (l : CommandLine) (x : Argument) : CommandLine :=
  match x with
  | .word text => l.withPositional text
  | .value id text => l.withFlag id text

/-- An argument that stands on its own is read on its own, whatever follows. -/
theorem read_cons {s : FlagSet} {arg : String} {x : Argument} (h : argument? s arg = some x)
    (rest : List String) :
    read s (arg :: rest) = prepend (fun l => l.withArgument x) (read s rest) := by
  unfold argument? at h
  split at h
  next body hbody =>
    split at h
    next => cases h
    next name text hcut =>
      obtain ⟨id, hid, rfl⟩ := Option.map_eq_some_iff.mp h
      -- A body that can be cut is not empty.
      cases body with
      | nil => cases hcut
      | cons c body =>
        rw [read, hbody]
        simp only [splitFlag, hcut, hid]
        rfl
  next => cases h
  next hflag hshort =>
    cases h
    rw [read]
    split
    next hlist => exact absurd hlist (hflag [])
    next body _ hlist => exact absurd hlist (hflag body)
    next c cs _ _ hlist => exact absurd hlist (hshort c cs)
    next => rfl

/-- A line of such arguments is read, whatever their order. -/
theorem read_eq_assemble {s : FlagSet} {args : List String}
    (h : ∀ arg ∈ args, (argument? s arg).isSome) :
    read s args = .ok (assemble (args.filterMap (argument? s))) := by
  induction args with
  | nil => rfl
  | cons arg rest ih =>
    obtain ⟨harg, hrest⟩ := List.forall_mem_cons.mp h
    obtain ⟨x, hx⟩ := Option.isSome_iff_exists.mp harg
    rw [read_cons hx, List.filterMap_cons_some hx, ih hrest]
    cases x <;> rfl

/-! ## Arguments in another order -/

/-- Both lines are made of positional words and of tokens `--name=value` of known flags. One is a
permutation of the other in which the words and the tokens for each tree of flags are in the same
order. -/
structure Rearranged (s : FlagSet) (a b : List String) : Prop where
  perm : a.Perm b
  known : ∀ arg ∈ a, (argument? s arg).isSome
  order : ∀ target, a.filter (fun arg => target? s arg = some target) =
    b.filter fun arg => target? s arg = some target

section Rearranged

variable {s : FlagSet} {a b : List String} (h : Rearranged s a b)

include h

/-- What the arguments for one target say is the same. -/
theorem Rearranged.filter_arguments (target : Target) :
    (a.filterMap (argument? s)).filter (fun x => x.target s = target) =
      (b.filterMap (argument? s)).filter fun x => x.target s = target := by
  have hfilter : ∀ args : List String,
      (args.filterMap (argument? s)).filter (fun x => x.target s = target) =
        (args.filter fun arg => target? s arg = some target).filterMap (argument? s) := by
    intro args
    rw [List.filter_filterMap, List.filterMap_filter]
    refine List.filterMap_congr fun arg _ => ?_
    rw [target?]
    cases argument? s arg <;> simp [Option.filter]
  rw [hfilter, hfilter, h.order]

/-- What is read off the arguments for one target is the same. -/
theorem Rearranged.filterMap_arguments {β : Type} {g : Argument → Option β} (target : Target)
    (hg : ∀ x, x.target s ≠ target → g x = none) :
    (a.filterMap (argument? s)).filterMap g = (b.filterMap (argument? s)).filterMap g := by
  have hfilter : ∀ xs : List Argument,
      xs.filterMap g = (xs.filter fun x => x.target s = target).filterMap g := by
    intro xs
    rw [List.filterMap_filter]
    refine List.filterMap_congr fun x _ => ?_
    by_cases hx : x.target s = target
    · simp [hx]
    · simp [hx, hg x hx]
  rw [hfilter, h.filter_arguments, ← hfilter]

/-- The values for flags are in the same order within each tree. -/
theorem Rearranged.reordered :
    Reordered (fun e => s.top e.1) ((a.filterMap (argument? s)).filterMap Argument.value?)
      ((b.filterMap (argument? s)).filterMap Argument.value?) := by
  refine reordered_of_filter_eq fun top => ?_
  rw [List.filter_filterMap, List.filter_filterMap]
  refine h.filterMap_arguments (.tree top) fun x hx => ?_
  cases x with
  | word text => rfl
  | value id text =>
    have htop : s.top id ≠ top := fun heq => hx (congrArg Target.tree heq)
    simp [Argument.value?, htop]

/-- The lines have the same positional arguments and values in the same order within each tree. -/
theorem Rearranged.read :
    ∃ xs ys words, read s a = .ok ⟨xs, words⟩ ∧ read s b = .ok ⟨ys, words⟩ ∧
      Reordered (fun e => s.top e.1) xs ys := by
  have hknown : ∀ arg ∈ b, (argument? s arg).isSome := fun arg harg =>
    h.known arg (h.perm.mem_iff.mpr harg)
  have hwords : (a.filterMap (argument? s)).filterMap Argument.word? =
      (b.filterMap (argument? s)).filterMap Argument.word? := by
    refine h.filterMap_arguments .positional fun x hx => ?_
    cases x with
    | word text => exact absurd rfl hx
    | value id text => rfl
  -- Of what the lines are assembled from, only the order of the values for flags can differ.
  rw [read_eq_assemble h.known, read_eq_assemble hknown, assemble, assemble, hwords]
  exact ⟨_, _, _, rfl, rfl, h.reordered⟩

end Rearranged

end CommandLine

namespace Call

/-! ## Issues in another order -/

/-- Only which names were reported matters, not in which order. -/
theorem withoutReported_congr {first second : List String}
    (h : ∀ name, name ∈ first ↔ name ∈ second) :
    withoutReported first = withoutReported second := by
  funext issue
  cases issue <;> simp [withoutReported, h]

/-- Merging only asks whether an earlier issue names a flag. -/
theorem mergeIssues_of_perm {first second : List Issue} (h : first.Perm second)
    (tail later : List Issue) :
    ∃ rest, mergeIssues (first ++ tail) later = first ++ rest ∧
      mergeIssues (second ++ tail) later = second ++ rest := by
  have hreported : withoutReported ((first ++ tail).flatMap Issue.flags) =
      withoutReported ((second ++ tail).flatMap Issue.flags) :=
    withoutReported_congr fun name => ((h.append_right tail).flatMap_right Issue.flags).mem_iff
  refine ⟨_, List.append_assoc _ _ _, ?_⟩
  rw [mergeIssues, ← hreported, List.append_assoc]

/-- Whether a call is ready does not depend on the order of the earlier issues, and if it is not,
then these stand in front of the same other issues. -/
theorem finish_of_perm (source : ValueSource) (s : FlagSet) {first second : List Issue}
    (h : first.Perm second) (tail : List Issue) :
    finish source s (first ++ tail) = finish source s (second ++ tail) ∨
      ∃ rest, finish source s (first ++ tail) = .error (.usage (first ++ rest)) ∧
        finish source s (second ++ tail) = .error (.usage (second ++ rest)) := by
  unfold finish
  cases s.resolve source with
  -- Nothing is missing. The issues of the line are reported if there are any.
  | ok inputs =>
    cases first with
    | nil =>
      rw [h.nil_eq]
      exact .inl rfl
    | cons issue first =>
      cases second with
      | nil => exact absurd h.eq_nil (List.cons_ne_nil _ _)
      | cons other second => exact .inr ⟨tail, rfl, rfl⟩
  | error error =>
    cases error with
    -- What is missing is reported behind the issues of the line, but not twice.
    | usage later =>
      obtain ⟨rest, hfirst, hsecond⟩ := mergeIssues_of_perm h tail later
      simp only [hfirst, hsecond]
      exact .inr ⟨rest, rfl, rfl⟩
    | _ => exact .inl rfl

/-! ## Calls from rearranged lines -/

/-- What is reported of the values on a command line that cannot be read, in the order of the
line. -/
def decodeFailures (host : Host) (s : FlagSet) (args : List String) : List Issue :=
  match CommandLine.read s args with
  | .error _ => []
  | .ok line => (s.setEach host line.occurrences).2

/-- Rearranging a command line of words and tokens, with the words in the same order and the tokens
for each tree of flags as well, does not change the outcome: the call with its parameters, configs
and link, the request for help, or the fault. Only if there are issues, and among them such with
values that cannot be read, then these may be reported in another order, in front of the same other
issues. -/
theorem prepare_of_rearranged (host : Host) (source : ValueSource) {op : Descriptor}
    {showHidden : Bool} {a b : List String}
    (h : ∀ s, flagsFor op showHidden = .ok s → CommandLine.Rearranged s a b) :
    prepare host source op showHidden a = prepare host source op showHidden b ∨
      ∃ s rest, flagsFor op showHidden = .ok s ∧
        (decodeFailures host s a).Perm (decodeFailures host s b) ∧
        prepare host source op showHidden a =
          .error (.usage (decodeFailures host s a ++ rest)) ∧
        prepare host source op showHidden b =
          .error (.usage (decodeFailures host s b ++ rest)) := by
  cases hflags : flagsFor op showHidden with
  | error fault =>
    unfold prepare
    rw [hflags]
    exact .inl rfl
  | ok s =>
    obtain ⟨xs, ys, words, ha, hb, hreordered⟩ := (h s hflags).read
    obtain ⟨hset, hissues⟩ := FlagSet.setEach_of_reordered
      (FlagSet.declares_flagsFor hflags).rooted host hreordered rfl
    have hfirst : (s.setEach host xs).2 = decodeFailures host s a := by rw [decodeFailures, ha]
    have hsecond : (s.setEach host ys).2 = decodeFailures host s b := by rw [decodeFailures, hb]
    rw [hfirst, hsecond] at hissues
    rw [prepare_eq_finish host source hflags ha, prepare_eq_finish host source hflags hb]
    simp only [FlagSet.applyLine, ← hset, hfirst, hsecond]
    -- The positional arguments meet the same flags after both lines.
    refine (finish_of_perm source _ hissues _).imp_right ?_
    rintro ⟨rest, ha, hb⟩
    exact ⟨s, rest, rfl, hissues, ha, hb⟩

/-- A size and a zone that cannot be read are reported in the order of the line. -/
theorem prepare_of_rearranged_resize :
    ∃ s rest, flagsFor FlagSet.resize false = .ok s ∧
      CommandLine.Rearranged s ["--size=many", "--zone=@none"] ["--zone=@none", "--size=many"] ∧
      prepare Host.bare (fun _ => none) FlagSet.resize false ["--size=many", "--zone=@none"] =
        .error (.usage (decodeFailures Host.bare s ["--size=many", "--zone=@none"] ++ rest)) ∧
      prepare Host.bare (fun _ => none) FlagSet.resize false ["--zone=@none", "--size=many"] =
        .error (.usage (decodeFailures Host.bare s ["--zone=@none", "--size=many"] ++ rest)) := by
  have hrun : (flagsFor FlagSet.resize false).toOption.any (fun s =>
      CommandLine.target? s "--size=many" == some (.tree 3) &&
        CommandLine.target? s "--zone=@none" == some (.tree 4)) = true := by decide +kernel
  have hdiffer :
      reportedIssues
          (prepare Host.bare (fun _ => none) FlagSet.resize false
            ["--size=many", "--zone=@none"]) ≠
        reportedIssues
          (prepare Host.bare (fun _ => none) FlagSet.resize false
            ["--zone=@none", "--size=many"]) := by decide +kernel
  cases hflags : flagsFor FlagSet.resize false with
  | error fault =>
    rw [hflags] at hrun
    cases hrun
  | ok s =>
    simp only [hflags, Except.toOption, Option.any_some, Bool.and_eq_true, beq_iff_eq] at hrun
    obtain ⟨hsize, hzone⟩ := hrun
    have hrearranged : CommandLine.Rearranged s ["--size=many", "--zone=@none"]
        ["--zone=@none", "--size=many"] := by
      have hknown : ∀ {arg target}, CommandLine.target? s arg = some target →
          (CommandLine.argument? s arg).isSome := by
        intro arg target harg
        obtain ⟨x, hx, -⟩ := Option.map_eq_some_iff.mp harg
        exact Option.isSome_iff_exists.mpr ⟨x, hx⟩
      refine ⟨.swap _ _ _, by simp [hknown hsize, hknown hzone], fun target => ?_⟩
      simp only [List.filter_cons, List.filter_nil, hsize, hzone, Option.some.injEq]
      by_cases htarget : CommandLine.Target.tree 3 = target
      · have hother : CommandLine.Target.tree 4 ≠ target := by
          rw [← htarget]
          decide
        simp [htarget, hother]
      · simp [htarget]
    have hall : ∀ t, flagsFor FlagSet.resize false = .ok t →
        CommandLine.Rearranged t ["--size=many", "--zone=@none"]
          ["--zone=@none", "--size=many"] := by
      intro t ht
      cases hflags.symm.trans ht
      exact hrearranged
    rcases prepare_of_rearranged Host.bare (fun _ => none) hall with heq | ⟨t, rest, ht, -, hab⟩
    · exact absurd (congrArg reportedIssues heq) hdiffer
    · cases hflags.symm.trans ht
      exact ⟨s, rest, rfl, hrearranged, hab⟩

end Call

end ApiCommand
