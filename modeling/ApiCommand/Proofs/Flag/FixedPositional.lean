import ApiCommand.Proofs.Flag.Positional
import ApiCommand.Proofs.Flag.Tree

/-!
# Positional arguments without a slot

If no positional flag expands, the arguments fill the flags that are unset, from left to right. Too
many of them are refused as a whole. Otherwise each argument is given to its flag as if it were the
only one (`bindPositionals_of_fixed`): root flags do not depend on each other, so an argument that
is refused stands in the way of no other (`setsApart_setEach`).
-/

namespace ApiCommand

namespace FlagSet

/-! ## Texts for different root flags -/

/-- Each of the texts was given to its flag as if it were the only one. -/
structure SetsApart (host : Host) (s : FlagSet) (entries : List (Nat × String)) (t : FlagSet)
    (issues : List Issue) : Prop where
  issues_eq : issues = entries.flatMap fun e => (s.trySet host e.1 e.2).2
  agree : ∀ e ∈ entries,
    AgreeOn (fun id => s.top id = e.1) t (s.trySet host e.1 e.2).1
  keeps : s.Keeps t (entries.map Prod.fst)

/-- A root flag is the top of its own tree. -/
theorem Rooted.top_of_mem_roots {s : FlagSet} (hs : s.Rooted) {id : Nat} (hid : id ∈ s.roots) :
    s.top id = id := by
  obtain ⟨p, hp, hroot, -⟩ := hs.place_of_mem id hid
  rw [top_of_place? hp, hroot]

section Apart

variable {s : FlagSet} (hrooted : s.Rooted) (hnested : s.Nested) (host : Host)

include hrooted hnested

/-- Giving a text to a root flag changes no other flag, whether the text is accepted or not. -/
theorem keeps_trySet {id : Nat} (hid : id ∈ s.roots) (raw : String) :
    s.Keeps (s.trySet host id raw).1 [id] := by
  by_cases hraw : raw = helpWord
  · refine ⟨blank_trySet host s id raw, fun {other} hother => ?_⟩
    have hne : id ≠ other := fun heq => hother (by simp [heq])
    simp [trySet, set, hraw, flag?_modify, hne]
  obtain ⟨p, hp, -⟩ := hrooted.place_of_mem id hid
  cases hdecode : p.schema.decode host (s.value? id) raw with
  | ok v =>
    obtain ⟨t, ht, hkeeps, -⟩ := trySet_of_mem_roots hrooted hnested host hid hp hraw hdecode
    rw [ht]
    exact hkeeps
  | error fault =>
    obtain ⟨f, hf, hfp⟩ := Option.bind_eq_some_iff.mp hp
    have hset := set_eq_of_place? host hraw hf hfp
    rw [hdecode] at hset
    rw [trySet, hset]
    exact Keeps.refl s [id]

/-- Texts for different root flags are given as if each were the only one. -/
theorem setsApart_setEach {entries : List (Nat × String)}
    (hnodup : (entries.map Prod.fst).Nodup) (hroots : ∀ e ∈ entries, e.1 ∈ s.roots) :
    s.SetsApart host entries (s.setEach host entries).1 (s.setEach host entries).2 := by
  induction entries generalizing s with
  | nil => exact ⟨rfl, fun e he => absurd he List.not_mem_nil, Keeps.refl s _⟩
  | cons e rest ih =>
    obtain ⟨hhead, hrest⟩ := List.forall_mem_cons.mp hroots
    rw [List.map_cons, List.nodup_cons] at hnodup
    have hkeeps := keeps_trySet hrooted hnested host hhead e.2
    have hblank := hkeeps.blank_eq.symm
    have htail := ih (hrooted.congr hblank) (hnested.congr hblank) hnodup.2 fun d hd => by
      rw [← roots_congr hblank]
      exact hrest d hd
    -- Behind the first text, each of the others does what it does alone.
    have hbehind : ∀ d ∈ rest,
        AgreeOn (fun id => s.top id = d.1) ((s.trySet host e.1 e.2).1.trySet host d.1 d.2).1
          (s.trySet host d.1 d.2).1 ∧
        ((s.trySet host e.1 e.2).1.trySet host d.1 d.2).2 = (s.trySet host d.1 d.2).2 := by
      intro d hd
      have htop : s.top e.1 ≠ s.top d.1 := by
        rw [hrooted.top_of_mem_roots hhead, hrooted.top_of_mem_roots (hrest d hd)]
        intro heq
        exact hnodup.1 (heq ▸ List.mem_map_of_mem hd)
      have h := trySet_trySet hrooted host htop e.2 d.2
      rwa [hrooted.top_of_mem_roots (hrest d hd)] at h
    rw [setEach_cons]
    refine ⟨?_, ?_, hkeeps.trans htail.keeps⟩
    · rw [List.flatMap_cons, htail.issues_eq]
      exact congrArg _ (List.flatMap_congr fun d hd => (hbehind d hd).2)
    · intro d hd id hid
      rcases List.mem_cons.mp hd with rfl | hd
      · refine htail.keeps.flag?_eq fun hmem => hnodup.1 ?_
        -- A root flag is in no other tree than its own.
        obtain ⟨c, hc, rfl⟩ := List.mem_map.mp hmem
        rw [hrooted.top_of_mem_roots (hrest c hc)] at hid
        rw [← hid]
        exact hmem
      · rw [← (hbehind d hd).1 id hid]
        exact htail.agree d hd id ((top_congr hblank id).symm.trans hid)

end Apart

/-! ## Binding without a slot -/

/-- Why there are too many arguments, by the first check that fails. -/
def positionalFault (s : FlagSet) (args : List String) : PositionalFault :=
  if s.positionals = [] then .notAccepted args
  else if s.positionals.length < args.length then .tooMany s.positionals.length args.length
  else .tooFewUnset args

/-- The arguments were given to the flags of the entries, each as if it were the only one. -/
structure Filled (host : Host) (s : FlagSet) (entries : List (Nat × String)) (t : FlagSet)
    (issues : List Issue) : Prop where
  /-- Binding succeeds exactly if each argument is accepted by its flag. -/
  nil_iff : issues = [] ↔ ∀ e ∈ entries, ∃ u, s.set host e.1 e.2 = .ok u
  /-- An argument that is accepted sets its flag, and what is seen of its value by the flags for
  places inside of it, just as it does alone. -/
  accepted : ∀ e ∈ entries, ∀ u, s.set host e.1 e.2 = .ok u →
    t.flag? e.1 = u.flag? e.1 ∧ ∀ id, s.top id = e.1 → t.value? id = u.value? id
  /-- Flags that got no argument or refused it are as before. -/
  kept : ∀ id, (∀ e ∈ entries, e.1 = id → ∃ issue, s.set host e.1 e.2 = .error issue) →
    t.flag? id = s.flag? id
  /-- So are values that none of the accepted arguments is for. -/
  kept_value : ∀ id, (∀ e ∈ entries, e.1 = s.top id → ∃ issue, s.set host e.1 e.2 = .error issue) →
    t.value? id = s.value? id
  /-- The issues name the flags that refused their arguments, in order. -/
  flags_issues : issues.map Issue.flags =
    (entries.filter fun e => !(s.set host e.1 e.2).isOk).map fun e => [s.name e.1]

theorem trySet_of_set_eq_ok {host : Host} {s u : FlagSet} {id : Nat} {raw : String}
    (h : s.set host id raw = .ok u) : s.trySet host id raw = (u, []) := by
  rw [trySet, h]

theorem trySet_of_set_eq_error {host : Host} {s : FlagSet} {id : Nat} {raw : String} {issue : Issue}
    (h : s.set host id raw = .error issue) : s.trySet host id raw = (s, [issue]) := by
  rw [trySet, h]

/-- The issue with a text names the flag that it was given to. -/
theorem flags_of_set_eq_error {host : Host} {s : FlagSet} {id : Nat} {raw : String} {issue : Issue}
    (h : s.set host id raw = .error issue) : issue.flags = [s.name id] := by
  have hgiven := given_trySet host s id raw
  have hissues : (s.trySet host id raw).2 = [issue] := by rw [trySet_of_set_eq_error h]
  generalize s.trySet host id raw = r at hgiven hissues
  cases hgiven with
  | refused _ hflag =>
    cases hissues
    rw [Issue.flags, name_of_flag? hflag]
  | _ => cases hissues

/-- The value of a flag is the same wherever its tree is. -/
theorem value?_of_agreeOn {s t u : FlagSet} (hrooted : s.Rooted) (hblank : t.blank = s.blank)
    {id : Nat} (h : AgreeOn (fun k => s.top k = s.top id) t u) : t.value? id = u.value? id := by
  refine h.value? rfl fun p hp => ?_
  rw [place?_congr hblank] at hp
  rw [hrooted.top_root hp, top_of_place? hp]

/-- Texts that are given as if each were the only one fill the flags. -/
theorem SetsApart.filled {host : Host} {s t : FlagSet} {entries : List (Nat × String)}
    {issues : List Issue} (hrooted : s.Rooted) (hroots : ∀ e ∈ entries, e.1 ∈ s.roots)
    (h : s.SetsApart host entries t issues) : s.Filled host entries t issues where
  nil_iff := by
    rw [h.issues_eq, List.flatMap_eq_nil_iff]
    refine forall₂_congr fun e _ => ?_
    cases hset : s.set host e.1 e.2 with
    | ok u => simp [trySet_of_set_eq_ok hset]
    | error issue => simp [trySet_of_set_eq_error hset]
  accepted := by
    intro e he u hu
    have hagree := h.agree e he
    rw [trySet_of_set_eq_ok hu] at hagree
    refine ⟨hagree e.1 (hrooted.top_of_mem_roots (hroots e he)), fun id hid => ?_⟩
    rw [← hid] at hagree
    exact value?_of_agreeOn hrooted h.keeps.blank_eq hagree
  kept := by
    intro id hid
    by_cases hmem : id ∈ entries.map Prod.fst
    · obtain ⟨e, he, rfl⟩ := List.mem_map.mp hmem
      obtain ⟨issue, hissue⟩ := hid e he rfl
      have hagree := h.agree e he
      rw [trySet_of_set_eq_error hissue] at hagree
      exact hagree e.1 (hrooted.top_of_mem_roots (hroots e he))
    · exact h.keeps.flag?_eq hmem
  kept_value := by
    intro id hid
    refine value?_of_agreeOn hrooted h.keeps.blank_eq ?_
    by_cases hmem : s.top id ∈ entries.map Prod.fst
    · obtain ⟨e, he, heq⟩ := List.mem_map.mp hmem
      obtain ⟨issue, hissue⟩ := hid e he heq
      have hagree := h.agree e he
      rwa [trySet_of_set_eq_error hissue, heq] at hagree
    · -- No flag of this tree got an argument.
      intro k hk
      refine h.keeps.flag?_eq fun hkmem => hmem ?_
      obtain ⟨e, he, rfl⟩ := List.mem_map.mp hkmem
      rw [← hk, hrooted.top_of_mem_roots (hroots e he)]
      exact hkmem
  flags_issues := by
    rw [h.issues_eq]
    clear h hroots
    induction entries with
    | nil => rfl
    | cons e rest ih =>
      rw [List.flatMap_cons, List.map_append, ih, List.filter_cons]
      cases hset : s.set host e.1 e.2 with
      | ok u => simp [trySet_of_set_eq_ok hset, Except.isOk, Except.toBool]
      | error issue =>
        simp [trySet_of_set_eq_error hset, Except.isOk, Except.toBool, flags_of_set_eq_error hset]

/-- Counting items by their indices is counting them. -/
theorem length_filter_range {α : Type} (p : α → Bool) (xs : List α) :
    ((List.range xs.length).filter fun i => (xs[i]?).any p).length = (xs.filter p).length := by
  induction xs with
  | nil => rfl
  | cons x xs ih =>
    rw [List.length_cons, List.range_succ_eq_map, List.filter_cons, List.filter_cons,
      List.filter_map, List.getElem?_cons_zero, Option.any_some]
    have hrest : (fun i => ((x :: xs)[i]?).any p) ∘ Nat.succ = fun i => (xs[i]?).any p := rfl
    rw [hrest]
    split <;> simp [ih]

/-- There is no slot exactly if none or several of the positional flags take an array. -/
theorem index?_expandSlot_eq_none_iff {s : FlagSet} :
    s.expandSlot.index? = none ↔ (s.positionals.filter s.takesArray).length ≠ 1 := by
  rw [← length_filter_range, expandSlot]
  split
  next h => simp [h, ExpandSlot.index?]
  next h => simp [h, ExpandSlot.index?]
  next hnil hone =>
    refine iff_of_true rfl fun hlength => ?_
    obtain ⟨i, hi⟩ := List.length_eq_one_iff.mp hlength
    exact hone i hi

/-- Too many arguments are refused as a whole. -/
theorem bindFixed_of_length_lt (host : Host) {s : FlagSet} {args : List String}
    (h : (s.positionals.filter s.isUnset).length < args.length) :
    s.bindFixed host args = (s, [.positional (s.positionalFault args).message]) := by
  have hne : args ≠ [] := by
    rintro rfl
    exact absurd h (Nat.not_lt_zero _)
  simp only [bindFixed, positionalFault, List.isEmpty_iff, if_neg hne, if_pos h]
  split
  next => rfl
  next => split <;> rfl

/-- If there is an unset flag for each argument, then the arguments are given to the first ones. -/
theorem bindFixed_of_length_le (host : Host) {s : FlagSet} {args : List String}
    (h : args.length ≤ (s.positionals.filter s.isUnset).length) :
    s.bindFixed host args = s.setEach host ((s.positionals.filter s.isUnset).zip args) := by
  have hunset : (s.positionals.filter s.isUnset).length ≤ s.positionals.length :=
    List.length_filter_le _ _
  by_cases hnil : args = []
  · subst hnil
    rw [List.zip_nil_right]
    rfl
  · have hpos : 0 < args.length := List.length_pos_iff.mpr hnil
    have hne : s.positionals ≠ [] := List.length_pos_iff.mp (by omega)
    simp only [bindFixed, List.isEmpty_iff, if_neg hnil, if_neg hne,
      if_neg (Nat.not_lt.mpr (Nat.le_trans h hunset)), if_neg (Nat.not_lt.mpr h)]

/-- What places belong to is a matter of the shape of the set. -/
theorem Grounded.congr {s t : FlagSet} (hs : s.Grounded) (h : s.blank = t.blank) : t.Grounded where
  rooted := hs.rooted.congr h
  nested := hs.nested.congr h
  mem_roots := by
    have hpositionals : s.positionals = t.positionals := congrArg (·.positionals) h
    rw [← roots_congr h, ← hpositionals]
    exact hs.mem_roots

/-- Without a slot, that is if none or several of the positional flags take an array, the arguments
are for the positional flags that are unset, whatever state the flags are in. If there are more
arguments than such flags, or no positional flags at all, then there is one issue and nothing
changes. Otherwise, if the positional flags are different, each argument in turn is given to the
next unset flag as if it were the only one. -/
theorem bindPositionals_of_fixed (host : Host) {start s : FlagSet} (hstart : start.Arises)
    (hblank : s.blank = start.blank)
    (hslot : (s.positionals.filter s.takesArray).length ≠ 1) (args : List String) :
    ((s.positionals.filter s.isUnset).length < args.length ∨ (args ≠ [] ∧ s.positionals = []) →
      s.bindPositionals host args = (s, [.positional (s.positionalFault args).message])) ∧
    (args.length ≤ (s.positionals.filter s.isUnset).length → s.positionals.Nodup →
      s.Filled host ((s.positionals.filter s.isUnset).zip args) (s.bindPositionals host args).1
        (s.bindPositionals host args).2) := by
  have hgrounded := hstart.grounded.congr hblank.symm
  rw [bindPositionals, index?_expandSlot_eq_none_iff.mpr hslot]
  refine ⟨fun h => bindFixed_of_length_lt host ?_, fun hlength hnodup => ?_⟩
  · -- Without positional flags, there is no flag to be unset.
    rcases h with h | ⟨hne, hnone⟩
    · exact h
    · rw [hnone]
      exact List.length_pos_iff.mpr hne
  · -- The arguments go to different root flags, and so each is set as if it were the only one.
    have hids : (((s.positionals.filter s.isUnset).zip args).map Prod.fst).Sublist s.positionals :=
      (sublist_map_fst_zip _ args).trans List.filter_sublist
    have hroots : ∀ e ∈ (s.positionals.filter s.isUnset).zip args, e.1 ∈ s.roots :=
      fun e he => hgrounded.mem_roots _ (hids.mem (List.mem_map_of_mem he))
    have hapart := setsApart_setEach hgrounded.rooted hgrounded.nested host (hnodup.sublist hids)
      hroots
    rw [← bindFixed_of_length_le host hlength] at hapart
    exact hapart.filled hgrounded.rooted hroots

/-- An operation with a size and a name, neither of which needs a flag. -/
def grow : Descriptor :=
  { name := "grow"
    parameters := .object [("name", .string), ("size", .integer)] []
    configs := .emptyObject, positionals := ["size", "name"] }

/-- A size that is no number is refused, and the name behind it is set all the same. -/
theorem bindPositionals_of_fixed_grow :
    ∃ s t issues u, ofOperation grow [] [] = .ok s ∧ s.Arises ∧
      (s.positionals.filter s.takesArray).length ≠ 1 ∧
      s.bindPositionals Host.bare ["big", "data"] = (t, issues) ∧
      issues.map Issue.flags = [["size"]] ∧ t.flag? 1 = s.flag? 1 ∧
      s.set Host.bare 0 "data" = .ok u ∧ t.flag? 0 = u.flag? 0 ∧
      ∃ f : PositionalFault, s.bindPositionals Host.bare ["8", "data", "more"] =
        (s, [.positional f.message]) := by
  have hrun : (ofOperation grow [] []).toOption.any (fun s =>
      s.positionals == [1, 0] && s.isUnset 0 && s.isUnset 1 && !s.takesArray 0 &&
        !s.takesArray 1 && s.name 1 == "size" && (s.set Host.bare 0 "data").toOption.isSome &&
        !(s.set Host.bare 1 "big").isOk) = true := by decide +kernel
  obtain ⟨s, hs, hrun⟩ := (Option.any_eq_true _ _).mp hrun
  simp only [Bool.and_eq_true, Bool.not_eq_true', beq_iff_eq, Option.isSome_iff_exists] at hrun
  obtain ⟨⟨⟨⟨⟨⟨⟨hpositionals, hname⟩, hsize⟩, harray⟩, harray'⟩, hflag⟩, u, hu⟩, hbig⟩ := hrun
  have hs := eq_ok_of_toOption hs
  have hu := eq_ok_of_toOption hu
  have hslot : (s.positionals.filter s.takesArray).length ≠ 1 := by
    simp [hpositionals, harray, harray']
  have hunset : s.positionals.filter s.isUnset = [1, 0] := by simp [hpositionals, hname, hsize]
  have hbound := bindPositionals_of_fixed Host.bare (.made hs) rfl hslot
  obtain ⟨-, hfilled⟩ := hbound ["big", "data"]
  have hfilled := hfilled (by rw [hunset]; decide) (by rw [hpositionals]; decide)
  rw [hunset] at hfilled
  obtain ⟨issue, hissue⟩ : ∃ issue, s.set Host.bare 1 "big" = .error issue := by
    cases hset : s.set Host.bare 1 "big" with
    | ok v => simp [hset, Except.isOk, Except.toBool] at hbig
    | error issue => exact ⟨issue, rfl⟩
  obtain ⟨⟨t, issues⟩, hbind⟩ : ∃ r, s.bindPositionals Host.bare ["big", "data"] = r := ⟨_, rfl⟩
  rw [hbind] at hfilled
  refine ⟨s, t, issues, u, hs, .made hs, hslot, hbind, ?_, ?_, hu, ?_,
    s.positionalFault ["8", "data", "more"], ?_⟩
  · rw [hfilled.flags_issues]
    have hok : (s.set Host.bare 0 "data").isOk = true := by rw [hu]; rfl
    simp [hbig, hok, hflag]
  · refine hfilled.kept 1 fun e he heq => ?_
    rcases List.mem_pair.mp (show e ∈ [(1, "big"), (0, "data")] from he) with rfl | rfl
    · exact ⟨issue, hissue⟩
    · exact absurd heq (by decide)
  · exact (hfilled.accepted (0, "data") (by simp) u hu).1
  · exact (hbound ["8", "data", "more"]).1 (.inl (by rw [hunset]; decide))

end FlagSet

end ApiCommand
