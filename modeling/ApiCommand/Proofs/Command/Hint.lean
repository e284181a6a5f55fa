import ApiCommand.Proofs.Command.Scan
import ApiCommand.Proofs.Flag.Handover
import ApiCommand.Proofs.Flag.Positional

/-!
# Hints for positional arguments

Completion counts the positional arguments in front of the word that is being typed, and does not
look at the values of flags. Binding hands an argument to a flag before the expanding slot, or from
the slot on, by the number of arguments in front of it, too (`mem_handoversExpanding`). Without a
slot it counts only the flags that are still unset (`mem_handoversFixed`). So completion names the
flag that the word goes to, or, without a slot, the one that it would go to if none of the flags up
to there had a value (`completeLine_of_handover`).
-/

namespace ApiCommand

namespace FlagSet

open CommandLine

/-! ## Where arguments are handed to -/

/-- In a list of flags with arguments, the index of an argument is that of its flag. -/
theorem getElem?_of_mem_zip_zipIdx {ids : List Nat} {args : List String} {id : Nat} {arg : String}
    {n : Nat} (h : (id, arg, n) ∈ ids.zip args.zipIdx) : ids[n]? = some id := by
  obtain ⟨i, hi⟩ := List.mem_iff_getElem?.mp h
  obtain ⟨hid, harg⟩ := List.getElem?_zip_eq_some.mp hi
  rw [List.getElem?_zipIdx, Option.map_eq_some_iff] at harg
  obtain ⟨_, -, heq⟩ := harg
  obtain rfl : i = n := by simpa using congrArg Prod.snd heq
  exact hid

/-- The arguments behind the first `k` are numbered from `k` on. -/
theorem le_of_mem_drop_zipIdx {args : List String} {arg : String} {n k : Nat}
    (h : (arg, n) ∈ args.zipIdx.drop k) : k ≤ n := by
  obtain ⟨i, hi⟩ := List.mem_iff_getElem?.mp h
  rw [List.getElem?_drop, List.getElem?_zipIdx, Option.map_eq_some_iff] at hi
  obtain ⟨_, -, heq⟩ := hi
  have hn : 0 + (k + i) = n := congrArg Prod.snd heq
  omega

/-- No argument is handed over twice, and none before an earlier one. -/
theorem handoversIfUnset_sublist (host : Host) (s : FlagSet) (entries : List Handover) :
    (s.handoversIfUnset host entries).Sublist entries := by
  induction entries generalizing s with
  | nil => exact .slnil
  | cons h rest ih =>
    rw [handoversIfUnset]
    split
    · exact (ih _).cons_cons h
    · exact (ih s).cons h

/-- Without a slot, an argument goes to the flag with its index among those that are unset. -/
theorem mem_handoversFixed {s : FlagSet} {args : List String} {id : Nat} {arg : String} {n : Nat}
    (h : (id, arg, n) ∈ s.handoversFixed args.zipIdx) :
    (s.positionals.filter s.isUnset)[n]? = some id := by
  unfold handoversFixed at h
  dsimp only at h
  split at h
  · cases h
  · exact getElem?_of_mem_zip_zipIdx h

/-- An argument goes to the flag with its index if that is before the slot, and otherwise to the
slot or to a flag behind it. -/
theorem mem_handoversExpanding {host : Host} {s : FlagSet} {k : Nat} {args : List String} {id : Nat}
    {arg : String} {n : Nat} (h : (id, arg, n) ∈ s.handoversExpanding host k args.zipIdx) :
    n < k ∧ s.positionals[n]? = some id ∨ k ≤ n ∧ id ∈ s.positionals.drop k := by
  have hleading : ∀ {t : FlagSet},
      (id, arg, n) ∈ t.handoversIfUnset host ((s.positionals.take k).zip args.zipIdx) →
        n < k ∧ s.positionals[n]? = some id := by
    intro t hmem
    have hid := getElem?_of_mem_zip_zipIdx ((handoversIfUnset_sublist host t _).subset hmem)
    rw [List.getElem?_take] at hid
    split at hid
    next hlt => exact ⟨hlt, hid⟩
    next => cases hid
  unfold handoversExpanding at h
  dsimp only at h
  split at h
  · -- Enough arguments: some go before the slot, some behind it, and those in between to it.
    rw [List.mem_append, List.mem_append, or_assoc] at h
    rcases h with hfirst | hlast | hmiddle
    · exact .inl (hleading hfirst)
    · obtain ⟨hid, harg⟩ := List.of_mem_zip ((handoversIfUnset_sublist host _ _).subset hlast)
      refine .inr ⟨le_of_mem_drop_zipIdx (List.mem_of_mem_drop harg), ?_⟩
      rw [← List.drop_drop] at hid
      exact List.mem_of_mem_drop hid
    · obtain ⟨slot, hslot, hmem⟩ := List.mem_flatMap.mp hmiddle
      obtain ⟨a, ha, heq⟩ := List.mem_map.mp hmem
      cases heq
      refine .inr ⟨le_of_mem_drop_zipIdx (List.mem_of_mem_take ha), ?_⟩
      rw [Option.mem_toList] at hslot
      rw [List.drop_eq_getElem?_toList_append, hslot]
      exact List.mem_cons_self
  · exact .inl (hleading h)

/-! ## What completion names -/

section Blank

variable {s t : FlagSet} (h : s.blank = t.blank)

include h

theorem positionals_congr : s.positionals = t.positionals :=
  congrArg (fun u => u.positionals) h

/-- What is given to flags does not move the slot. -/
theorem expandSlot_congr : s.expandSlot = t.expandSlot := by
  have hschema : ∀ u : FlagSet, ∀ id,
      (u.flag? id).bind Flag.schema? = (u.blank.flag? id).bind Flag.schema? := by
    intro u id
    rw [flag?_blank, Option.bind_map]
    rfl
  have htakes : s.takesArray = t.takesArray := funext fun id => by
    rw [takesArray, takesArray, hschema s, hschema t, h]
  rw [expandSlot, expandSlot, positionals_congr h, htakes]

end Blank

/-- If nothing up to an index is filtered out, then filtering does not change what is there. -/
theorem getElem?_filter_of_take {ids : List Nat} {test : Nat → Bool} {n : Nat}
    (hlt : n < ids.length) (h : ∀ id ∈ ids.take (n + 1), test id) :
    (ids.filter test)[n]? = some ids[n] := by
  have hlength : (ids.take (n + 1)).length = n + 1 := List.length_take_of_le hlt
  have hsplit : ids.filter test = ids.take (n + 1) ++ (ids.drop (n + 1)).filter test := by
    rw [← List.filter_eq_self.mpr h, ← List.filter_append, List.take_append_drop]
  rw [hsplit, List.getElem?_append_left (by omega), List.getElem?_take_of_succ,
    List.getElem?_eq_getElem hlt]

section Positional

/-- As long as nothing is filtered out, dropping elements can be done before. -/
theorem drop_filterMap {α β : Type} {f : α → Option β} {xs : List α} (h : ∀ x ∈ xs, (f x).isSome)
    (k : Nat) : (xs.filterMap f).drop k = (xs.drop k).filterMap f := by
  induction xs generalizing k with
  | nil => rw [List.filterMap_nil, List.drop_nil, List.drop_nil, List.filterMap_nil]
  | cons x xs ih =>
    obtain ⟨hx, hxs⟩ := List.forall_mem_cons.mp h
    obtain ⟨y, hy⟩ := Option.isSome_iff_exists.mp hx
    cases k with
    | zero => rfl
    | succ k => rw [List.filterMap_cons_some hy, List.drop_succ_cons, List.drop_succ_cons, ih hxs]

variable {s : FlagSet} (hflags : ∀ id ∈ s.positionals, (s.flag? id).isSome)

include hflags

/-- Before the slot, or without one, completion offers values of the flag at the number of
arguments, and names it. -/
theorem completePositional_of_getElem? {args : List String} {id : Nat} {f : Flag}
    (hid : s.positionals[args.length]? = some id) (hf : s.flag? id = some f)
    (hslot : ∀ k, s.expandSlot.index? = some k → args.length < k) (part : String) :
    s.completePositional args part = { completeValue f part with hints := [hintFor f] } := by
  have hdrop : (s.positionals.filterMap s.flag?).drop args.length =
      f :: (s.positionals.drop (args.length + 1)).filterMap s.flag? := by
    rw [drop_filterMap hflags, List.drop_eq_getElem?_toList_append, hid, Option.toList_some,
      List.singleton_append, List.filterMap_cons_some hf]
  have hget : (s.positionals.filterMap s.flag?)[args.length]? = some f := by
    rw [← List.head?_drop, hdrop, List.head?_cons]
  have hne : (s.positionals.filterMap s.flag?).isEmpty = false := by
    rw [List.isEmpty_eq_false_iff]
    intro hnil
    rw [hnil] at hget
    cases hget
  simp only [completePositional, hne, hget]
  cases hindex : s.expandSlot.index? with
  | none => rfl
  | some k => simp [hslot k hindex]

/-- From the slot on, completion offers values of the slot and of all flags behind it. -/
theorem completePositional_of_le {args : List String} {k : Nat}
    (hslot : s.expandSlot.index? = some k) (hle : k ≤ args.length) (part : String) :
    ∃ slot trailing, (s.positionals.drop k).filterMap s.flag? = slot :: trailing ∧
      s.completePositional args part = completeAny slot trailing part := by
  have hlt := lt_of_expandSlot hslot
  obtain ⟨slot, hf⟩ := Option.isSome_iff_exists.mp (hflags _ (List.getElem_mem hlt))
  have hdrop : (s.positionals.drop k).filterMap s.flag? =
      slot :: (s.positionals.drop (k + 1)).filterMap s.flag? := by
    rw [List.drop_eq_getElem_cons hlt, List.filterMap_cons_some hf]
  have hne : (s.positionals.filterMap s.flag?).isEmpty = false := by
    rw [List.isEmpty_eq_false_iff]
    intro hnil
    rw [← drop_filterMap hflags, hnil, List.drop_nil] at hdrop
    cases hdrop
  refine ⟨slot, _, hdrop, ?_⟩
  simp [completePositional, hne, hslot, Nat.not_lt.mpr hle, drop_filterMap hflags, hdrop]

/-- Before the slot, completion names the flag that the next argument is handed to, and from the
slot on, this is among the flags that it names. -/
theorem completePositional_of_handoversExpanding {host : Host} {given : FlagSet}
    (hpositionals : given.positionals = s.positionals) {k : Nat}
    (hindex : s.expandSlot.index? = some k) {args before : List String} {id : Nat} {arg : String}
    (hbound : (id, arg, before.length) ∈ given.handoversExpanding host k args.zipIdx)
    (part : String) :
    ∃ f, s.flag? id = some f ∧
      (before.length < k →
        s.completePositional before part = { completeValue f part with hints := [hintFor f] }) ∧
      (k ≤ before.length →
        ∃ slot trailing, (s.positionals.drop k).filterMap s.flag? = slot :: trailing ∧
          f ∈ slot :: trailing ∧
          s.completePositional before part = completeAny slot trailing part) := by
  have hmem := mem_handoversExpanding hbound
  rw [hpositionals] at hmem
  -- An argument before the slot has a flag of its own. From the slot on, all flags there are
  -- offered.
  rcases hmem with ⟨hlt, hid⟩ | ⟨hle, hid⟩
  · obtain ⟨f, hf⟩ := Option.isSome_iff_exists.mp (hflags id (List.mem_of_getElem? hid))
    refine ⟨f, hf, fun _ => ?_, fun hle => absurd hle (Nat.not_le.mpr hlt)⟩
    refine completePositional_of_getElem? hflags hid hf (fun j hj => ?_) part
    cases hindex.symm.trans hj
    exact hlt
  · obtain ⟨f, hf⟩ := Option.isSome_iff_exists.mp (hflags id (List.mem_of_mem_drop hid))
    refine ⟨f, hf, fun hlt => absurd hlt (Nat.not_lt.mpr hle), fun _ => ?_⟩
    obtain ⟨slot, trailing, hoffered, heq⟩ := completePositional_of_le hflags hindex hle part
    refine ⟨slot, trailing, hoffered, ?_, heq⟩
    rw [← hoffered]
    exact List.mem_filterMap.mpr ⟨id, hid, hf⟩

/-- Without a slot, the next argument is handed to the flag at its index among those that are unset,
and completion names the flag at its index among all. -/
theorem completePositional_of_handoversFixed {given : FlagSet}
    (hpositionals : given.positionals = s.positionals) (hindex : s.expandSlot.index? = none)
    {args before : List String} {id : Nat} {arg : String}
    (hbound : (id, arg, before.length) ∈ given.handoversFixed args.zipIdx) (part : String) :
    ∃ f, s.flag? id = some f ∧
      (s.positionals.filter given.isUnset)[before.length]? = some id ∧
      ∃ named g, s.positionals[before.length]? = some named ∧ s.flag? named = some g ∧
        s.completePositional before part = { completeValue g part with hints := [hintFor g] } ∧
        ((∀ other ∈ s.positionals.take (before.length + 1), given.isUnset other) →
          named = id) := by
  have hunset := mem_handoversFixed hbound
  rw [hpositionals] at hunset
  obtain ⟨f, hf⟩ := Option.isSome_iff_exists.mp
    (hflags id (List.mem_of_mem_filter (List.mem_of_getElem? hunset)))
  have hlt : before.length < s.positionals.length :=
    (List.getElem?_eq_some_iff.mp hunset).1.trans_le (List.length_filter_le _ _)
  have hnamed := List.getElem?_eq_getElem hlt
  obtain ⟨g, hg⟩ := Option.isSome_iff_exists.mp (hflags _ (List.getElem_mem hlt))
  refine ⟨f, hf, hunset, _, g, hnamed, hg, ?_, fun hall => ?_⟩
  · refine completePositional_of_getElem? hflags hnamed hg (fun j hj => ?_) part
    cases hindex.symm.trans hj
  · -- Up to there, none of the flags is left out.
    exact Option.some.inj ((getElem?_filter_of_take hlt hall).symm.trans hunset)

end Positional

/-- Behind words that leave no flag waiting, completion goes on with a positional argument. -/
theorem completeLine_of_scan {s : FlagSet} {words args : List String} {part : String}
    (hscan : words.foldl (Scan.step s) {} = { positionals := args }) (hpart : IsPlain part) :
    s.completeLine words part = s.completePositional args part := by
  unfold completeLine
  rw [hscan]
  dsimp only [Option.bind_none]
  split
  next body hbody => exact absurd hbody (hpart body)
  next => rfl

/-- The positional flags of a call are there. -/
theorem isSome_flag?_of_mem_positionals {op : Descriptor} {showHidden : Bool} {s : FlagSet}
    (h : Call.flagsFor op showHidden = .ok s) : ∀ id ∈ s.positionals, (s.flag? id).isSome := by
  intro id hid
  have hgrounded := (flagsFor_induction h Arises.made Arises.revealed).grounded
  obtain ⟨p, hp, -⟩ := hgrounded.rooted.place_of_mem id (hgrounded.mem_roots id hid)
  obtain ⟨f, hf, -⟩ := Option.bind_eq_some_iff.mp hp
  rw [hf]
  rfl

/-- Let a word be a positional argument behind others, and let binding hand it to a flag. With an
expanding slot, completion in place of the word names this flag: alone if as many arguments as there
are in front of the word are left before the slot, and with the slot and the flags behind it
otherwise. Without a slot, the flag is the one with that many flags before it among those that are
unset once the values of flags are given, while completion names the one with that many positional
flags before it, whether they are unset or not. -/
theorem completeLine_of_handover {host : Host} {op : Descriptor} {showHidden : Bool} {s : FlagSet}
    (hflags : Call.flagsFor op showHidden = .ok s) {words : List String} {word : String}
    {typed line : CommandLine} (htyped : read s words = .ok typed)
    (hword : argument? s word = some (.word word))
    (hline : read s (words ++ [word]) = .ok line) (hescape : s.EscapesPlainly words) {id : Nat}
    (hbound : (id, word, typed.positionals.length) ∈
      (s.setEach host line.occurrences).1.handovers host line.positionals)
    {part : String} (hpart : IsPlain part) :
    let count := typed.positionals.length
    let given := (s.setEach host line.occurrences).1
    ∃ f, s.flag? id = some f ∧
      (∀ k, s.expandSlot.index? = some k → count < k →
        s.completeLine words part = { completeValue f part with hints := [hintFor f] }) ∧
      (∀ k, s.expandSlot.index? = some k → k ≤ count →
        ∃ slot trailing, (s.positionals.drop k).filterMap s.flag? = slot :: trailing ∧
          f ∈ slot :: trailing ∧ s.completeLine words part = completeAny slot trailing part) ∧
      (s.expandSlot.index? = none →
        (s.positionals.filter given.isUnset)[count]? = some id ∧
        ∃ named g, s.positionals[count]? = some named ∧ s.flag? named = some g ∧
          s.completeLine words part = { completeValue g part with hints := [hintFor g] } ∧
          ((∀ other ∈ s.positionals.take (count + 1), given.isUnset other) → named = id)) := by
  intro count given
  have hthere := isSome_flag?_of_mem_positionals hflags
  have hblank := blank_setEach host s line.occurrences
  have hpositionals : given.positionals = s.positionals := positionals_congr hblank
  have hslots : given.expandSlot = s.expandSlot := expandSlot_congr hblank
  -- The scan finds the arguments that the word stands behind.
  have hscan : words.foldl (Scan.step s) {} = { positionals := typed.positionals } :=
    (reads_of_read htyped).foldl_step (valued_flagsFor hflags) hescape []
  have hcomplete := completeLine_of_scan hscan hpart
  -- With the word, there is one more argument and the same flags.
  obtain rfl : line = { typed with positionals := typed.positionals ++ [word] } := by
    have hread := ((reads_of_read htyped).append_word hword).read_eq
    exact Except.ok.inj (hline.symm.trans hread)
  rw [handovers, hslots] at hbound
  cases hindex : s.expandSlot.index? with
  | some k =>
    rw [hindex] at hbound
    obtain ⟨f, hf, hone, hmany⟩ :=
      completePositional_of_handoversExpanding hthere hpositionals hindex hbound part
    rw [← hcomplete] at hone hmany
    refine ⟨f, hf, fun j hj => ?_, fun j hj => ?_, nofun⟩
    · cases hj
      exact hone
    · cases hj
      exact hmany
  | none =>
    rw [hindex] at hbound
    obtain ⟨f, hf, hfixed⟩ :=
      completePositional_of_handoversFixed hthere hpositionals hindex hbound part
    rw [← hcomplete] at hfixed
    exact ⟨f, hf, nofun, nofun, fun _ => hfixed⟩

/-- The last argument goes to the target, and is offered as one more file or as the target. -/
theorem completeLine_of_handover_send :
    ∃ s typed line id f slot trailing, Call.flagsFor send false = .ok s ∧
      read s ["a"] = .ok typed ∧ read s ["a", "home"] = .ok line ∧
      (id, "home", 1) ∈ (s.setEach Host.bare line.occurrences).1.handovers Host.bare
        line.positionals ∧
      s.flag? id = some f ∧ f ∈ slot :: trailing ∧
      s.completeLine ["a"] "h" = completeAny slot trailing "h" := by
  have hrun : (Call.flagsFor send false).toOption.any (fun s =>
      s.expandSlot == .at 0 &&
      (read s ["a"]).toOption.any (fun typed => typed.positionals.length == 1) &&
      (read s ["a", "home"]).toOption.any fun line =>
        ((s.setEach Host.bare line.occurrences).1.handovers Host.bare line.positionals).any
          fun h => h.2 == ("home", 1)) = true := by decide +kernel
  obtain ⟨s, hs, hrun⟩ := (Option.any_eq_true _ _).mp hrun
  simp only [Bool.and_eq_true, beq_iff_eq] at hrun
  obtain ⟨⟨hslot, htyped⟩, hline⟩ := hrun
  obtain ⟨typed, htyped, hlength⟩ := (Option.any_eq_true _ _).mp htyped
  obtain ⟨line, hline, hbound⟩ := (Option.any_eq_true _ _).mp hline
  obtain ⟨⟨id, arg⟩, hbound, harg⟩ := List.any_eq_true.mp hbound
  cases beq_iff_eq.mp harg
  have hflags := eq_ok_of_toOption hs
  have htyped := eq_ok_of_toOption htyped
  have hline := eq_ok_of_toOption hline
  have hlength := beq_iff_eq.mp hlength
  obtain ⟨f, hf, -, hmany, -⟩ := completeLine_of_handover hflags htyped rfl hline
    (escapesPlainly_of_notMem s (by decide)) (by rw [hlength]; exact hbound)
    (show IsPlain "h" from fun body hbody => by simp at hbody)
  obtain ⟨slot, trailing, -, hmem, heq⟩ := hmany 0 (by rw [hslot]; rfl) (Nat.zero_le _)
  exact ⟨s, typed, line, id, f, slot, trailing, hflags, htyped, hline, hbound, hf, hmem, heq⟩

/-- An operation with two positional flags. -/
def copy : Descriptor :=
  { name := "copy"
    parameters := .object [("from", .string), ("to", .string)] []
    configs := .emptyObject, positionals := ["from", "to"] }

/-- The first of two positional flags has a value, so the word goes to the second one, but
completion names the first one. -/
theorem completeLine_ne_copy :
    ∃ s line id, Call.flagsFor copy false = .ok s ∧ read s ["--from=x", "y"] = .ok line ∧
      (s.applyLine Host.bare line).2 = [] ∧
      (id, "y", 0) ∈ (s.setEach Host.bare line.occurrences).1.handovers Host.bare
        line.positionals ∧
      s.name id = "to" ∧ (s.completeLine ["--from=x"] "").hints = ["from"] := by
  have hrun : (Call.flagsFor copy false).toOption.any (fun s =>
      (s.completeLine ["--from=x"] "").hints == ["from"] &&
      (read s ["--from=x", "y"]).toOption.any fun line =>
        (s.applyLine Host.bare line).2.isEmpty &&
        ((s.setEach Host.bare line.occurrences).1.handovers Host.bare line.positionals).any
          fun h => h.2 == ("y", 0) && s.name h.1 == "to") = true := by decide +kernel
  obtain ⟨s, hs, hrun⟩ := (Option.any_eq_true _ _).mp hrun
  obtain ⟨hhints, hrun⟩ := Bool.and_eq_true_iff.mp hrun
  obtain ⟨line, hline, hrun⟩ := (Option.any_eq_true _ _).mp hrun
  obtain ⟨hissues, hrun⟩ := Bool.and_eq_true_iff.mp hrun
  obtain ⟨⟨id, arg⟩, hbound, harg⟩ := List.any_eq_true.mp hrun
  obtain ⟨harg, hname⟩ := Bool.and_eq_true_iff.mp harg
  cases beq_iff_eq.mp harg
  exact ⟨s, line, id, eq_ok_of_toOption hs, eq_ok_of_toOption hline, List.isEmpty_iff.mp hissues,
    hbound, beq_iff_eq.mp hname, beq_iff_eq.mp hhints⟩

end FlagSet

end ApiCommand
