import ApiCommand.Proofs.Flag.PositionalIndices
import ApiCommand.Proofs.Flag.RootSetting

/-!
# Binding positional arguments

If one positional flag takes an array, each flag has a share of the arguments, which is told by its
index (`share`). The shares are the arguments in their order, each of them once (`flatMap_share`),
and binding gives each flag its share and changes no other one (`bindPositionals_of_expanding`).
-/

namespace ApiCommand

/-! ## The shares of the flags -/

/-- The arguments for the positional flag at index `i` of `n`, if the one at index `k` takes an
array. The flags before index `k` get the first arguments. If there are enough of them, then the
flags behind it get the last ones, and the array gets what is left in between. -/
def share (n k : Nat) (args : List String) (i : Nat) : List String :=
  if i < k then args[i]?.toList
  else if args.length < k + (n - k - 1) then []
  else if i = k then (args.drop k).take (args.length - k - (n - k - 1))
  else args[args.length + i - n]?.toList

section Share

variable {n k : Nat} {args : List String}

theorem share_of_lt {i : Nat} (hi : i < k) : share n k args i = args[i]?.toList := if_pos hi

/-- Without enough arguments, nothing is left for the flags from the array on. -/
theorem share_of_length_lt (hfew : args.length < k + (n - k - 1)) {i : Nat} (hi : k ≤ i) :
    share n k args i = [] := by
  rw [share, if_neg (Nat.not_lt.mpr hi), if_pos hfew]

/-- The array gets the arguments in between. -/
theorem share_slot (henough : k + (n - k - 1) ≤ args.length) :
    share n k args k = (args.drop k).take (args.length - k - (n - k - 1)) := by
  rw [share, if_neg (Nat.lt_irrefl k), if_neg (Nat.not_lt.mpr henough), if_pos rfl]

/-- The flags behind the array get the last arguments. -/
theorem share_behind (hk : k < n) (henough : k + (n - k - 1) ≤ args.length) (j : Nat) :
    share n k args (k + 1 + j) = (args.drop (args.length - (n - k - 1)))[j]?.toList := by
  have hindex : args.length + (k + 1 + j) - n = args.length - (n - k - 1) + j := by omega
  rw [share, if_neg (by omega), if_neg (Nat.not_lt.mpr henough), if_neg (by omega), hindex,
    List.getElem?_drop]

/-- The items at the first indices are the first items. -/
theorem flatMap_range_getElem? (xs : List String) (m : Nat) :
    ((List.range m).flatMap fun i => xs[i]?.toList) = xs.take m := by
  induction m with
  | zero => rfl
  | succ m ih =>
    rw [List.range_succ, List.flatMap_append, ih, List.flatMap_singleton, List.take_add_one]

/-- Seen from the first flag to the last one, the shares are the arguments in their order, of which
none is used twice or left out. Only if there are too few for the flags behind the array do they end
before it. -/
theorem flatMap_share (hk : k < n) (args : List String) :
    (List.range n).flatMap (share n k args) =
      if args.length < k + (n - k - 1) then args.take k else args := by
  -- The indices are those before the slot, the slot, and those behind it.
  have hrange : List.range n =
      List.range k ++ k :: (List.range (n - k - 1)).map fun j => k + 1 + j := by
    rw [← List.singleton_append, ← List.append_assoc, ← List.range_succ, ← List.range_add]
    congr 1
    omega
  have hleading : (List.range k).flatMap (share n k args) = args.take k := by
    rw [← flatMap_range_getElem?]
    exact List.flatMap_congr fun i hi => share_of_lt (List.mem_range.mp hi)
  rw [hrange, List.flatMap_append, List.flatMap_cons, hleading, List.flatMap_map]
  -- With too few arguments, only the flags before the slot get any.
  by_cases hfew : args.length < k + (n - k - 1)
  · have hbehind : ∀ j, share n k args (k + 1 + j) = [] :=
      fun j => share_of_length_lt hfew (by omega)
    rw [if_pos hfew, share_of_length_lt hfew (Nat.le_refl k), funext hbehind]
    simp
  · -- Otherwise the slot gets what is between the first and the last arguments.
    have henough := Nat.not_lt.mp hfew
    have hlast : (List.range (n - k - 1)).flatMap (fun j => share n k args (k + 1 + j)) =
        args.drop (args.length - (n - k - 1)) := by
      rw [funext (share_behind hk henough), flatMap_range_getElem?, List.take_of_length_le]
      rw [List.length_drop]
      omega
    rw [if_neg hfew, share_slot henough, hlast]
    calc
      _ = args.take k ++ ((args.drop k).take (args.length - k - (n - k - 1)) ++
            (args.drop k).drop (args.length - k - (n - k - 1))) := by
        rw [List.drop_drop]
        congr 3
        omega
      _ = args := by rw [List.take_append_drop, List.take_append_drop]

end Share

/-- A schema that reads arrays admits them. -/
theorem Schema.isArray_of_primaryType? {s : Schema} (h : s.primaryType? = some "array") :
    s.isArray := by
  unfold primaryType? at h
  rw [isArray, hasType, List.contains_iff_mem]
  rcases Option.or_eq_some_iff.mp h with hfind | ⟨-, hhead⟩
  · exact List.mem_of_find?_eq_some hfind
  · exact List.mem_of_head? hhead

namespace FlagSet

/-! ## Binding to an expanding slot -/

/-- The entries for the flags before the slot and, if there are enough arguments, for those behind
it. -/
def entriesBeside (s : FlagSet) (k : Nat) (args : List String) : List (Nat × String) :=
  (s.positionals.take k).zip args ++
    if args.length < k + (s.positionals.length - k - 1) then []
    else (s.positionals.drop (k + 1)).zip
      (args.drop (args.length - (s.positionals.length - k - 1)))

/-- Unset flags can be filled in two parts, one after the other. -/
theorem setEachIfUnset_append (host : Host) (s : FlagSet) (xs ys : List (Nat × String)) :
    s.setEachIfUnset host (xs ++ ys) =
      let (t, issues) := s.setEachIfUnset host xs
      let (u, more) := t.setEachIfUnset host ys
      (u, issues ++ more) := by
  induction xs generalizing s with
  | nil => rfl
  | cons e xs ih => simp only [List.cons_append, setEachIfUnset, ih, List.append_assoc]

section Entries

variable {s : FlagSet} {k : Nat} {args : List String}

/-- An entry beside the array is a flag with an argument of its share. -/
theorem mem_entriesBeside_iff (hk : k < s.positionals.length) {e : Nat × String} :
    e ∈ s.entriesBeside k args ↔ ∃ i, i ≠ k ∧ s.positionals[i]? = some e.1 ∧
      e.2 ∈ share s.positionals.length k args i := by
  have hbefore : e ∈ (s.positionals.take k).zip args ↔ ∃ i, i < k ∧
      s.positionals[i]? = some e.1 ∧ e.2 ∈ share s.positionals.length k args i := by
    rw [List.mem_iff_getElem?]
    simp only [List.getElem?_zip_eq_some, List.getElem?_take, Option.ite_none_right_eq_some,
      and_assoc]
    refine exists_congr fun i => and_congr_right fun hi => and_congr_right fun _ => ?_
    rw [share_of_lt hi, Option.mem_toList]
  -- An index beside the slot is before it or behind it.
  have hsplit : ∀ P : Nat → Prop, (∃ i, i ≠ k ∧ P i) ↔ (∃ i, i < k ∧ P i) ∨ ∃ i, k < i ∧ P i := by
    intro P
    simp only [Nat.ne_iff_lt_or_gt, or_and_right, exists_or]
  rw [entriesBeside, List.mem_append, hbefore, hsplit]
  refine or_congr_right ?_
  split
  -- With too few arguments, nothing is bound behind the slot.
  next hfew =>
    refine iff_of_false List.not_mem_nil ?_
    rintro ⟨i, hi, -, he⟩
    rw [share_of_length_lt hfew (Nat.le_of_lt hi)] at he
    cases he
  next hfew =>
    have henough := Nat.not_lt.mp hfew
    rw [List.mem_iff_getElem?]
    -- An index behind the slot is counted from there.
    simp only [List.getElem?_zip_eq_some, @List.getElem?_drop _ s.positionals]
    constructor
    · rintro ⟨j, hid, harg⟩
      refine ⟨k + 1 + j, by omega, hid, ?_⟩
      rw [share_behind hk henough, Option.mem_toList]
      exact harg
    · rintro ⟨i, hi, hid, harg⟩
      obtain ⟨j, rfl⟩ := Nat.exists_eq_add_of_le (Nat.succ_le_of_lt hi)
      rw [share_behind hk henough, Option.mem_toList] at harg
      exact ⟨j, hid, harg⟩

/-- Of the flags that texts are dealt out to, each gets no more than one. -/
theorem sublist_map_fst_zip (ids : List Nat) (texts : List String) :
    ((ids.zip texts).map Prod.fst).Sublist ids := by
  rw [List.zip_eq_zip_take_min, List.map_fst_zip (by simp)]
  exact List.take_sublist _ _

/-- The flags of the entries are some of the positional flags, in order. -/
theorem sublist_entriesBeside : ((s.entriesBeside k args).map Prod.fst).Sublist s.positionals := by
  rw [entriesBeside, List.map_append]
  refine List.Sublist.trans ?_ (List.eraseIdx_sublist s.positionals k)
  rw [List.eraseIdx_eq_take_drop_succ]
  refine (sublist_map_fst_zip _ _).append ?_
  split
  · exact List.nil_sublist _
  · exact sublist_map_fst_zip _ _

/-- All flags get their shares, and the slot is the last one. -/
theorem bindExpanding_eq (host : Host) {slot : Nat} (hslot : s.positionals[k]? = some slot) :
    s.bindExpanding host k args =
      let (t, issues) := s.setEachIfUnset host (s.entriesBeside k args)
      let (u, more) := t.setEach host
        ((share s.positionals.length k args k).map fun arg => (slot, arg))
      (u, issues ++ more) := by
  by_cases hfew : args.length < k + (s.positionals.length - k - 1)
  · rw [bindExpanding_of_length_lt host s hfew, share_of_length_lt hfew (Nat.le_refl k),
      entriesBeside, if_pos hfew, List.append_nil]
    simp [setEach]
  · have henough := Nat.not_lt.mp hfew
    rw [bindExpanding_of_le host s henough hslot, share_slot henough, entriesBeside, if_neg hfew,
      setEachIfUnset_append]

end Entries

/-- The positional flags are different and unset, only the one at index `k` takes an array, and each
of the arguments can be read by the flag that it is for. -/
structure Expanding (host : Host) (s : FlagSet) (k : Nat) (args : List String) : Prop where
  nodup : s.positionals.Nodup
  isUnset : ∀ id ∈ s.positionals, s.isUnset id
  array : ∃ slot p, s.positionals[k]? = some slot ∧ s.place? slot = some p ∧
    p.schema.primaryType? = some "array"
  others : ∀ i id, s.positionals[i]? = some id → i ≠ k → s.takesArray id = false
  ne_helpWord : ∀ arg ∈ args, arg ≠ helpWord
  reads : ∀ i id p, s.positionals[i]? = some id → i ≠ k → s.place? id = some p →
    ∀ arg ∈ share s.positionals.length k args i, ∃ v, p.schema.decode host none arg = .ok v
  /-- An argument for the array is one of its items, and not a file or an array itself. -/
  readsItems : ∀ slot p, s.positionals[k]? = some slot → s.place? slot = some p →
    ∀ arg ∈ share s.positionals.length k args k, Value.namesFile arg = false ∧
      Value.opensWith '[' arg = false ∧ ∃ item, Schema.decodeItem host p.schema.items arg = .ok item

/-- Each positional flag got its share of the arguments, and no flag changed that got none. -/
structure Shared (host : Host) (s : FlagSet) (k : Nat) (args : List String) (t : FlagSet) :
    Prop where
  value?_eq : ∀ i id p, s.positionals[i]? = some id → i ≠ k → s.place? id = some p →
    ∀ arg ∈ share s.positionals.length k args i, ∃ v, p.schema.decode host none arg = .ok v ∧
      t.value? id = some v
  items_eq : ∀ slot p, s.positionals[k]? = some slot → s.place? slot = some p →
    share s.positionals.length k args k ≠ [] → ∃ items,
      (share s.positionals.length k args k).map (Schema.decodeItem host p.schema.items) =
        items.map Except.ok ∧
      t.value? slot = some (.array items)
  flag?_eq : ∀ id, (∀ i, s.positionals[i]? = some id → share s.positionals.length k args i = []) →
    t.flag? id = s.flag? id

/-- The array is the only one, so it is the expanding slot. -/
theorem Expanding.expandSlot_eq {host : Host} {s : FlagSet} {k : Nat} {args : List String}
    (h : s.Expanding host k args) : s.expandSlot = .at k := by
  obtain ⟨slot, p, hslot, hp, harray⟩ := h.array
  have hlt : k < s.positionals.length := (List.getElem?_eq_some_iff.mp hslot).1
  have htakes : s.takesArray slot = true := by
    obtain ⟨f, hf, hfp⟩ := Option.bind_eq_some_iff.mp hp
    simp only [takesArray, hf, Option.bind_some, Flag.schema?, hfp, Option.map_some,
      Option.any_some]
    exact Schema.isArray_of_primaryType? harray
  -- All positional flags are looked through, and this one alone takes an array.
  have hfilter : ((List.range s.positionals.length).filter fun i =>
      (s.positionals[i]?).any s.takesArray) = [k] := by
    refine List.perm_singleton.mp ((List.perm_ext_iff_of_nodup (List.nodup_range.filter _)
      (List.pairwise_singleton _ k)).mpr fun i => ?_)
    rw [List.mem_filter, List.mem_range, List.mem_singleton]
    constructor
    · rintro ⟨hi, hany⟩
      obtain ⟨id, hid, htakes⟩ := (Option.any_eq_true _ _).mp hany
      by_contra hne
      rw [h.others i id hid hne] at htakes
      cases htakes
    · rintro rfl
      exact ⟨hlt, by simp [hslot, htakes]⟩
  rw [expandSlot, hfilter]

/-- Whatever is in a share is one of the arguments. -/
theorem mem_of_mem_share {n k i : Nat} {args : List String} {arg : String}
    (h : arg ∈ share n k args i) : arg ∈ args := by
  unfold share at h
  split at h
  · exact List.mem_of_getElem? (Option.mem_toList.mp h)
  split at h
  · cases h
  split at h
  · exact List.mem_of_mem_drop (List.mem_of_mem_take h)
  · exact List.mem_of_getElem? (Option.mem_toList.mp h)

section Expanding

variable {host : Host} {s : FlagSet} (hrooted : s.Rooted) (hnested : s.Nested)
  (hroots : ∀ id ∈ s.positionals, id ∈ s.roots) {k : Nat} {args : List String}
  (h : s.Expanding host k args)

include hrooted hroots h

/-- A flag other than the array can be given its share. -/
theorem Expanding.admits {i id : Nat} {arg : String} (hid : s.positionals[i]? = some id)
    (hne : i ≠ k) (harg : arg ∈ share s.positionals.length k args i) :
    s.Admits host (id, arg) := by
  have hmem := List.mem_of_getElem? hid
  obtain ⟨p, hp, -⟩ := hrooted.place_of_mem id (hroots id hmem)
  obtain ⟨v, hv⟩ := h.reads i id p hid hne hp arg harg
  exact ⟨hroots id hmem, h.isUnset id hmem, h.ne_helpWord arg (mem_of_mem_share harg), p, v, hp, hv⟩

include hnested

/-- Binding gives each positional flag its share and raises no issue. -/
theorem Expanding.shared_bindPositionals :
    ∃ t, s.bindPositionals host args = (t, []) ∧ s.Shared host k args t := by
  obtain ⟨slot, p, hslot, hp, harray⟩ := h.array
  have hk : k < s.positionals.length := (List.getElem?_eq_some_iff.mp hslot).1
  have hslotMem := List.mem_of_getElem? hslot
  -- One flag is not at two indices.
  have hindex : ∀ {i j id : Nat}, s.positionals[i]? = some id → s.positionals[j]? = some id →
      i = j := by
    intro i j id hi hj
    have hlt := (List.getElem?_eq_some_iff.mp hi).1
    exact (List.getElem?_inj hlt h.nodup).mp (hi.trans hj.symm)
  have hbeside : ∀ {id : Nat}, id ∈ (s.entriesBeside k args).map Prod.fst → ∃ i, i ≠ k ∧
      s.positionals[i]? = some id ∧ share s.positionals.length k args i ≠ [] := by
    intro id hid
    obtain ⟨e, he, rfl⟩ := List.mem_map.mp hid
    obtain ⟨i, hi, hid, harg⟩ := (mem_entriesBeside_iff hk).mp he
    exact ⟨i, hi, hid, List.ne_nil_of_mem harg⟩
  have hslotBeside : slot ∉ (s.entriesBeside k args).map Prod.fst := fun hmem => by
    obtain ⟨i, hi, hid, -⟩ := hbeside hmem
    exact hi (hindex hid hslot)
  obtain ⟨t, hrun, hkeeps, hvalues⟩ := setEachIfUnset_of_admits hrooted hnested host
    (h.nodup.sublist sublist_entriesBeside) fun e he => by
      obtain ⟨i, hi, hid, harg⟩ := (mem_entriesBeside_iff hk).mp he
      exact h.admits hrooted hroots hid hi harg
  have hblank := hkeeps.blank_eq.symm
  obtain ⟨u, items, hrun', hkeeps', hitems, hvalue⟩ := setEach_of_array (hrooted.congr hblank)
    (hnested.congr hblank) host (by rw [← roots_congr hblank]; exact hroots slot hslotMem)
    (by rwa [← place?_congr hblank]) harray fun arg harg =>
      ⟨h.ne_helpWord arg (mem_of_mem_share harg), h.readsItems slot p hslot hp arg harg⟩
  -- The array has no items before it gets its share.
  rw [hkeeps.value?_eq hrooted (hroots slot hslotMem) hslotBeside,
    value?_of_isUnset (h.isUnset slot hslotMem)] at hvalue
  refine ⟨u, ?_, ?_, ?_, ?_⟩
  · rw [bindPositionals, h.expandSlot_eq]
    simp only [ExpandSlot.index?, bindExpanding_eq host hslot, hrun, hrun', List.append_nil]
  · intro i id q hid hne hq arg harg
    obtain ⟨v, hv⟩ := h.reads i id q hid hne hq arg harg
    have hmem : (id, arg) ∈ s.entriesBeside k args :=
      (mem_entriesBeside_iff hk).mpr ⟨i, hne, hid, harg⟩
    have hidSlot : id ∉ (share s.positionals.length k args k).map fun _ => slot := by
      intro hmem
      obtain ⟨_, -, rfl⟩ := List.mem_map.mp hmem
      exact hne (hindex hid hslot)
    refine ⟨v, hv, ?_⟩
    rw [hkeeps'.value?_eq (hrooted.congr hblank)
      (by rw [← roots_congr hblank]; exact hroots id (List.mem_of_getElem? hid)) hidSlot]
    exact hvalues (id, arg) hmem q v hq hv
  · intro slot' q hslot' hq hne
    cases hslot.symm.trans hslot'
    cases hp.symm.trans hq
    exact ⟨items, hitems, by rw [hvalue, if_neg hne]; rfl⟩
  · intro id hnone
    refine (hkeeps.trans hkeeps').flag?_eq ?_
    rw [List.mem_append, not_or]
    constructor
    · intro hmem
      obtain ⟨i, -, hid, hne⟩ := hbeside hmem
      exact hne (hnone i hid)
    · intro hmem
      obtain ⟨arg, harg, rfl⟩ := List.mem_map.mp hmem
      exact List.ne_nil_of_mem harg (hnone k hslot)

end Expanding

/-! ## All flag sets -/

/-- The flag sets that there are: those that are made for operations, and what they become when
hidden flags are revealed and texts are given to flags. -/
inductive Arises : FlagSet → Prop
  | made {op : Descriptor} {reserved : List String} {extras : List (String × External)}
      {s : FlagSet} : ofOperation op reserved extras = .ok s → Arises s
  | revealed {s : FlagSet} : Arises s → Arises s.revealHidden
  | reached {s t : FlagSet} : Arises s → Reachable s t → Arises t

/-- Places are inside of root flags, and the positional flags are root flags. -/
structure Grounded (s : FlagSet) : Prop where
  rooted : s.Rooted
  nested : s.Nested
  mem_roots : ∀ id ∈ s.positionals, id ∈ s.roots

/-- The positional flags of an operation are root flags. -/
theorem grounded_ofOperation {op : Descriptor} {reserved : List String}
    {extras : List (String × External)} {s : FlagSet}
    (h : ofOperation op reserved extras = .ok s) : s.Grounded where
  rooted := (declares_ofOperation h).rooted
  nested := nested_ofOperation h
  mem_roots := by
    intro id hid
    have hnested := nested_ofOperation h
    have hpath := List.mem_map_of_mem hid (f := s.propertyPath?)
    rw [(positionals_of_ofOperation h).2] at hpath
    obtain ⟨name, -, hname⟩ := List.mem_map.mp hpath
    obtain ⟨p, hp, hroot⟩ := Option.bind_eq_some_iff.mp hname.symm
    obtain ⟨r, -, hr⟩ := Option.map_eq_some_iff.mp hroot
    have hempty : p.path = [] := congrArg PropertyPath.inside hr
    rw [← (hnested.root hp (hnested.parent_eq_none hp hempty)).1]
    exact (declares_ofOperation h).rooted.root_mem id p hp

/-- Wherever flag sets come from, their positional flags are root flags. -/
theorem Arises.grounded {s : FlagSet} (h : s.Arises) : s.Grounded := by
  induction h with
  | made h => exact grounded_ofOperation h
  | @revealed s _ ih =>
    have hplace := funext s.place?_revealHidden
    refine ⟨⟨?_, ?_⟩, ⟨?_, ?_⟩, ih.mem_roots⟩
    all_goals rw [hplace]
    · exact ih.rooted.place_of_mem
    · exact ih.rooted.root_mem
    · exact ih.nested.root
    · exact ih.nested.inside
  | @reached s t _ hreach ih =>
    have hblank := (blank_of_reachable hreach).symm
    have hpositionals : s.positionals = t.positionals := congrArg (·.positionals) hblank
    refine ⟨ih.rooted.congr hblank, ih.nested.congr hblank, fun id hid => ?_⟩
    rw [← roots_congr hblank]
    exact ih.mem_roots id (hpositionals ▸ hid)

/-- No index is out of range when positional arguments are bound, whatever the flags are. If the
positional flags are different and unset and just one of them takes an array, then binding gives
each of them its share of the arguments, provided that the arguments can be read and that those for
the array are neither files nor arrays themselves. No other flag changes. The shares are the
arguments in their order, each of them once, unless there are too few for the flags behind the
array: then only the flags before it get any. -/
theorem bindPositionals_of_expanding (host : Host) :
    (∀ (s : FlagSet) (args : List String),
      s.bindPositionals? host args = some (s.bindPositionals host args)) ∧
    ∀ (s : FlagSet) (k : Nat) (args : List String), s.Arises → s.Expanding host k args →
      (∃ t, s.bindPositionals host args = (t, []) ∧ s.Shared host k args t) ∧
      (List.range s.positionals.length).flatMap (share s.positionals.length k args) =
        if args.length < k + (s.positionals.length - k - 1) then args.take k else args := by
  refine ⟨bindPositionals?_eq host, fun s k args hs h => ⟨?_, ?_⟩⟩
  · obtain ⟨hrooted, hnested, hroots⟩ := hs.grounded
    exact h.shared_bindPositionals hrooted hnested hroots
  · obtain ⟨slot, p, hslot, -⟩ := h.array
    exact flatMap_share (List.getElem?_eq_some_iff.mp hslot).1 args

/-- An operation with any number of files in front of a target. -/
def send : Descriptor :=
  { name := "send"
    parameters := .object [("files", .array .string), ("target", .string)] []
    configs := .emptyObject, positionals := ["files", "target"] }

/-- Of three arguments, the first two are files. -/
theorem bindPositionals_of_expanding_send :
    ∃ s t, ofOperation send [] [] = .ok s ∧ s.Arises ∧
      s.Expanding Host.bare 0 ["a", "b", "home"] ∧
      s.bindPositionals Host.bare ["a", "b", "home"] = (t, []) ∧
      s.Shared Host.bare 0 ["a", "b", "home"] t := by
  have hrun : (ofOperation send [] []).toOption.any (fun s =>
      s.positionals == [0, 1] && s.isUnset 0 && s.isUnset 1 && !s.takesArray 1 &&
        (s.place? 0).any (fun p => p.schema.primaryType? == some "array" &&
          (Schema.decodeItem Host.bare p.schema.items "a").toOption.isSome &&
          (Schema.decodeItem Host.bare p.schema.items "b").toOption.isSome) &&
        (s.place? 1).any fun p => (p.schema.decode Host.bare none "home").toOption.isSome) =
      true := by decide +kernel
  obtain ⟨s, hs, hrun⟩ := (Option.any_eq_true _ _).mp hrun
  simp only [Bool.and_eq_true, Bool.not_eq_true', Option.any_eq_true, Option.isSome_iff_exists,
    beq_iff_eq] at hrun
  obtain ⟨⟨⟨⟨⟨hpositionals, hfiles⟩, htarget⟩, hothers⟩, p, hp, ⟨harray, v, hv⟩, w, hw⟩, q, hq,
    home, hhome⟩ := hrun
  have hs := eq_ok_of_toOption hs
  have hlength : s.positionals.length = 2 := congrArg List.length hpositionals
  have hslot : s.positionals[0]? = some 0 := by rw [hpositionals]; rfl
  have hbeside : ∀ i id, s.positionals[i]? = some id → i ≠ 0 → i = 1 ∧ id = 1 := by
    intro i id hid hne
    rw [hpositionals] at hid
    match i, hid, hne with
    | 0, _, hne => exact absurd rfl hne
    | 1, hid, _ => exact ⟨rfl, (Option.some.inj hid).symm⟩
  have hexpanding : s.Expanding Host.bare 0 ["a", "b", "home"] := by
    refine ⟨?_, ?_, ⟨0, p, hslot, hp, harray⟩, ?_, by decide, ?_, ?_⟩
    · rw [hpositionals]
      decide
    · simp [hpositionals, hfiles, htarget]
    · intro i id hid hne
      obtain ⟨rfl, rfl⟩ := hbeside i id hid hne
      exact hothers
    · intro i id r hid hne hr arg harg
      obtain ⟨rfl, rfl⟩ := hbeside i id hid hne
      cases hq.symm.trans hr
      rw [hlength] at harg
      rw [List.mem_singleton.mp (show arg ∈ ["home"] from harg)]
      exact ⟨home, eq_ok_of_toOption hhome⟩
    · intro slot r hid hr arg harg
      cases hslot.symm.trans hid
      cases hp.symm.trans hr
      rw [hlength] at harg
      rcases List.mem_pair.mp (show arg ∈ ["a", "b"] from harg) with rfl | rfl
      · exact ⟨by decide, by decide, v, eq_ok_of_toOption hv⟩
      · exact ⟨by decide, by decide, w, eq_ok_of_toOption hw⟩
  obtain ⟨-, hbound⟩ := bindPositionals_of_expanding Host.bare
  obtain ⟨⟨t, ht, hshared⟩, -⟩ := hbound s 0 _ (.made hs) hexpanding
  exact ⟨s, t, hs, .made hs, hexpanding, ht, hshared⟩

/-- A text with an array behind white space does not start with a bracket, and it can be read as an
item. But it is not taken for an item: what it stands for becomes the array. -/
theorem bindPositionals_ne_send :
    ∃ s t p item, ofOperation send [] [] = .ok s ∧ s.positionals = [0, 1] ∧ s.isUnset 0 ∧
      s.isUnset 1 ∧ s.expandSlot = .at 0 ∧ s.place? 0 = some p ∧
      p.schema.primaryType? = some "array" ∧ " [\"a\"]".toList.head? = some ' ' ∧
      Schema.decodeItem Host.bare p.schema.items " [\"a\"]" = .ok item ∧
      s.bindPositionals Host.bare [" [\"a\"]", "home"] = (t, []) ∧
      item.plainText = " [\"a\"]" ∧
      (Value.currentItems (t.value? 0)).map Json.plainText = ["a"] ∧
      t.value? 0 ≠ some (.array [item]) := by
  have hrun : (ofOperation send [] []).toOption.any (fun s =>
      s.positionals == [0, 1] && s.isUnset 0 && s.isUnset 1 && s.expandSlot == .at 0 &&
        (s.place? 0).any (fun p => p.schema.primaryType? == some "array" &&
          (Schema.decodeItem Host.bare p.schema.items " [\"a\"]").toOption.any fun item =>
            item.plainText == " [\"a\"]") &&
        (s.bindPositionals Host.bare [" [\"a\"]", "home"]).2.isEmpty &&
        (Value.currentItems ((s.bindPositionals Host.bare [" [\"a\"]", "home"]).1.value? 0)).map
          Json.plainText == ["a"]) = true := by decide +kernel
  obtain ⟨s, hs, hrun⟩ := (Option.any_eq_true _ _).mp hrun
  simp only [Bool.and_eq_true, Option.any_eq_true, beq_iff_eq, List.isEmpty_iff] at hrun
  obtain ⟨⟨⟨⟨⟨⟨hpositionals, hfiles⟩, htarget⟩, hslot⟩, p, hp, harray, item, hitem, htext⟩, hissues⟩,
    hitems⟩ := hrun
  refine ⟨s, _, p, item, eq_ok_of_toOption hs, hpositionals, hfiles, htarget, hslot, hp, harray,
    by decide, eq_ok_of_toOption hitem, Prod.ext rfl hissues, htext, hitems, fun heq => ?_⟩
  rw [heq, Value.currentItems, List.map_singleton, htext] at hitems
  exact absurd hitems (by decide)

end FlagSet

end ApiCommand
