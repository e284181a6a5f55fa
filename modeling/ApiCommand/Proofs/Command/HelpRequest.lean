import ApiCommand.Proofs.Command.Call
import ApiCommand.Proofs.Flag.Growth
import ApiCommand.Proofs.Flag.Handover
import Mathlib.Data.List.Find

/-!
# Requests for help

The help word in place of a value only leaves a mark, which no later value takes away
(`FlagSet.asked_setEach_iff`). Resolution looks at the marks of the flags for places before anything
else, so a call ends with help on a flag exactly if the command line hands the help word to one of
these (`Call.help_of_prepare`). The flags of the command itself are marked, too, but nobody looks at
their marks.
-/

namespace ApiCommand

namespace FlagSet

/-! ## Marks -/

/-- Help was asked for in place of a value of the flag. -/
def asked (s : FlagSet) (id : Nat) : Bool := (s.flag? id).any Flag.helpRequested

/-- Sets of the same shape have flags under the same numbers. -/
theorem isSome_flag?_congr {s t : FlagSet} (h : s.blank = t.blank) (id : Nat) :
    (s.flag? id).isSome = (t.flag? id).isSome := by
  have hflag := congrArg Option.isSome (flag?_congr h id)
  rwa [Option.isSome_map, Option.isSome_map] at hflag

/-- Only the help word leaves a mark, and only at the flag that it is given to. -/
theorem asked_trySet_iff (host : Host) (s : FlagSet) (id : Nat) (raw : String) (other : Nat) :
    (s.trySet host id raw).1.asked other ↔
      s.asked other ∨ (other, helpWord) = (id, raw) ∧ (s.flag? other).isSome := by
  have h := given_trySet host s id raw
  generalize s.trySet host id raw = r at h ⊢
  -- Without the help word the marks are those of before.
  have hsame : ∀ {t : FlagSet}, raw ≠ helpWord → (t.asked other = s.asked other) →
      (t.asked other ↔ s.asked other ∨ (other, helpWord) = (id, raw) ∧ (s.flag? other).isSome) := by
    intro t hraw heq
    rw [heq, or_iff_left]
    rintro ⟨hentry, -⟩
    exact hraw (congrArg Prod.snd hentry).symm
  cases h with
  | help hraw =>
    rw [asked, flag?_modify, asked, hraw]
    cases s.flag? other with
    | none => simp
    | some f =>
      by_cases hid : id = other
      · simp [hid]
      · simp [hid, Ne.symm hid]
  | unknown hraw => exact hsame hraw rfl
  | external hraw =>
    refine hsame hraw ?_
    rw [asked, flag?_modify, asked]
    cases s.flag? other with
    | none => rfl
    | some f => by_cases hid : id = other <;> simp [hid]
  | @stored f p v hraw =>
    refine hsame hraw ?_
    rw [asked, flag?_store, asked]
    cases s.flag? other with
    | none => rfl
    | some f => by_cases hroot : p.root = other <;> simp [hroot]
  | refused hraw => exact hsame hraw rfl

/-- Whatever else is given to flags, a flag is marked in the end exactly if it was marked before or
the help word is among what it is given. -/
theorem asked_setEach_iff (host : Host) (s : FlagSet) (entries : List (Nat × String)) {id : Nat}
    (hid : (s.flag? id).isSome) :
    (s.setEach host entries).1.asked id ↔ s.asked id ∨ (id, helpWord) ∈ entries := by
  induction entries generalizing s with
  | nil => simp [setEach]
  | cons e rest ih =>
    -- The flag is still there for the rest, whatever becomes of the first entry.
    have hnext : ((s.trySet host e.1 e.2).1.flag? id).isSome := by
      rw [isSome_flag?_congr (blank_trySet host s e.1 e.2)]
      exact hid
    have hstep : (s.setEach host (e :: rest)).1 =
        ((s.trySet host e.1 e.2).1.setEach host rest).1 := rfl
    rw [hstep, ih _ hnext, asked_trySet_iff, List.mem_cons, or_assoc, and_iff_left hid]

/-- Resolution stops at the first flag for a place that the command line hands the help word to. -/
theorem helpFlag?_applyLine {s : FlagSet} (hlisted : s.Listed) (hfresh : s.Fresh) (host : Host)
    (line : CommandLine) :
    (s.applyLine host line).1.helpFlag? =
      (s.roots ++ s.children).find? fun id => (s.handed host line).contains (id, helpWord) := by
  have hblank := blank_setEach host s (s.handed host line)
  have hchildren : (s.setEach host (s.handed host line)).1.children = s.children :=
    congrArg (fun t => t.children) hblank
  rw [applyLine_fst, helpFlag?, roots_congr hblank, hchildren]
  refine List.find?_congr fun id hid => ?_
  obtain ⟨p, hp⟩ := hlisted.mem_iff.mp hid
  obtain ⟨f, hf, -⟩ := Option.bind_eq_some_iff.mp hp
  -- Nothing was asked for before.
  have hbefore : s.asked id = false := by
    rw [asked, hf, Option.any_some, hfresh.helpRequested hf]
  rw [Bool.eq_iff_iff, List.contains_iff_mem]
  change (s.setEach host (s.handed host line)).1.asked id ↔ _
  rw [asked_setEach_iff host s _ (by rw [hf]; rfl), hbefore]
  simp

end FlagSet

namespace Call

open FlagSet

/-! ## Calls that end with help -/

/-- What was found wrong before does not count if resolution stops with help. -/
theorem finish_of_helpFlag? (source : ValueSource) {s : FlagSet} {id : Nat}
    (h : s.helpFlag? = some id) (issues : List Issue) :
    finish source s issues = .error (.flagHelp (s.name id) (s.help id)) := by
  unfold finish resolve
  rw [h]

/-- If no flag for a place was asked for help, then resolution does not stop with help. -/
theorem finish_ne_flagHelp {source : ValueSource} {s : FlagSet} (h : s.helpFlag? = none)
    (issues : List Issue) (name text : String) :
    finish source s issues ≠ .error (.flagHelp name text) := by
  -- Resolution reports nothing but issues, then.
  have hresolve : ∀ {error}, s.resolve source = .error error →
      ∃ later, error = .usage later := by
    intro error herror
    unfold resolve at herror
    rw [h] at herror
    dsimp only at herror
    split at herror
    next => cases herror
    next =>
      cases herror
      exact ⟨_, rfl⟩
  intro hfinish
  unfold finish at hfinish
  split at hfinish
  next => cases hfinish
  next => cases hfinish
  next => cases hfinish
  next stop _ heq =>
    obtain ⟨later, rfl⟩ := hresolve heq
    cases hfinish

/-- For a command line that is read, the outcome is help on a flag exactly if the line hands the
help word to a flag for a place, whatever else is wrong with the line and whatever the flag is given
later. The help is then on the first of these flags. The flags of the command itself ask for no
help. -/
theorem help_of_prepare (host : Host) (source : ValueSource) {op : Descriptor} {showHidden : Bool}
    {args : List String} {s : FlagSet} {line : CommandLine}
    (hflags : flagsFor op showHidden = .ok s) (hline : CommandLine.read s args = .ok line) :
    let t := (s.applyLine host line).1
    ((∃ name text, prepare host source op showHidden args = .error (.flagHelp name text)) ↔
      ∃ id, (id, helpWord) ∈ s.handed host line ∧ (s.place? id).isSome) ∧
    ∀ id, (s.roots ++ s.children).find?
        (fun id => (s.handed host line).contains (id, helpWord)) = some id →
      prepare host source op showHidden args = .error (.flagHelp (t.name id) (t.help id)) := by
  intro t
  have hlisted := listed_flagsFor hflags
  have hprepare := prepare_eq_finish host source hflags hline
  have hstop := helpFlag?_applyLine hlisted (declares_flagsFor hflags).fresh host line
  have hfirst : ∀ id, (s.roots ++ s.children).find?
        (fun id => (s.handed host line).contains (id, helpWord)) = some id →
      prepare host source op showHidden args = .error (.flagHelp (t.name id) (t.help id)) := by
    intro id hid
    rw [hprepare]
    exact finish_of_helpFlag? source (hstop.trans hid) _
  refine ⟨⟨?_, ?_⟩, hfirst⟩
  · -- Without a marked flag, the outcome is something else than help.
    rintro ⟨name, text, herror⟩
    rw [hprepare] at herror
    cases hfind : (s.roots ++ s.children).find?
        fun id => (s.handed host line).contains (id, helpWord) with
    | none => exact absurd herror (finish_ne_flagHelp (hstop.trans hfind) _ name text)
    | some id =>
      have hmem := hlisted.mem_iff.mp (List.mem_of_find?_eq_some hfind)
      have hgiven := List.find?_some hfind
      exact ⟨id, List.contains_iff_mem.mp hgiven, Option.isSome_iff_exists.mpr hmem⟩
  · -- Resolution looks at all flags for places, so it stops at this one or at an earlier one.
    rintro ⟨id, hmem, hplace⟩
    have hfound : ((s.roots ++ s.children).find?
        fun id => (s.handed host line).contains (id, helpWord)).isSome :=
      List.find?_isSome.mpr ⟨id, hlisted.mem_iff.mpr (Option.isSome_iff_exists.mp hplace),
        List.contains_iff_mem.mpr hmem⟩
    obtain ⟨first, hfind⟩ := Option.isSome_iff_exists.mp hfound
    exact ⟨_, _, hfirst first hfind⟩

/-- Help is asked for first, and a value that is given later does not count. -/
theorem help_of_prepare_resize :
    ∃ s line, flagsFor FlagSet.resize false = .ok s ∧
      CommandLine.read s ["--size=help", "--size=many"] = .ok line ∧
      (∃ id, (id, helpWord) ∈ s.handed Host.bare line ∧ (s.place? id).isSome) ∧
      ∃ name text, prepare Host.bare (fun _ => none) FlagSet.resize false
        ["--size=help", "--size=many"] = .error (.flagHelp name text) := by
  have hrun : (flagsFor FlagSet.resize false).toOption.any (fun s =>
      (CommandLine.read s ["--size=help", "--size=many"]).toOption.any fun line =>
        (s.handed Host.bare line).any fun e =>
          e.2 == helpWord && (s.place? e.1).isSome) = true := by decide +kernel
  obtain ⟨s, hs, hrun⟩ := (Option.any_eq_true _ _).mp hrun
  obtain ⟨line, hline, hrun⟩ := (Option.any_eq_true _ _).mp hrun
  obtain ⟨⟨id, raw⟩, hmem, hentry⟩ := List.any_eq_true.mp hrun
  obtain ⟨hraw, hplace⟩ := by simpa only [Bool.and_eq_true, beq_iff_eq] using hentry
  subst hraw
  have hflags := eq_ok_of_toOption hs
  have hread := eq_ok_of_toOption hline
  exact ⟨s, line, hflags, hread, ⟨id, hmem, hplace⟩,
    (help_of_prepare Host.bare (fun _ => none) hflags hread).1.mpr ⟨id, hmem, hplace⟩⟩

/-- An operation that asks for nothing. -/
def ping : Descriptor := { name := "ping", parameters := .emptyObject, configs := .emptyObject }

/-- The flag for the link to follow is asked for help, but the call is ready. -/
theorem ok_of_prepare_ping :
    ∃ s line, flagsFor ping false = .ok s ∧ CommandLine.read s ["--follow=help"] = .ok line ∧
      (∃ id, (id, helpWord) ∈ s.handed Host.bare line) ∧
      ∃ call, prepare Host.bare (fun _ => none) ping false ["--follow=help"] = .ok call := by
  have hrun : (flagsFor ping false).toOption.any (fun s =>
      (CommandLine.read s ["--follow=help"]).toOption.any fun line =>
        (s.handed Host.bare line).any fun e => e.2 == helpWord) = true := by decide +kernel
  have hready : (prepare Host.bare (fun _ => none) ping false
      ["--follow=help"]).toOption.isSome = true := by decide +kernel
  obtain ⟨s, hs, hrun⟩ := (Option.any_eq_true _ _).mp hrun
  obtain ⟨line, hline, hrun⟩ := (Option.any_eq_true _ _).mp hrun
  obtain ⟨⟨id, raw⟩, hmem, hraw⟩ := List.any_eq_true.mp hrun
  cases beq_iff_eq.mp hraw
  obtain ⟨call, hcall⟩ := Option.isSome_iff_exists.mp hready
  exact ⟨s, line, eq_ok_of_toOption hs, eq_ok_of_toOption hline, ⟨id, hmem⟩, call,
    eq_ok_of_toOption hcall⟩

end Call

end ApiCommand
