import ApiCommand.Proofs.Flag.Growth
import Mathlib.Data.List.Nodup
import Mathlib.Data.List.Perm.Subperm

/-!
# Names of flags

A flag gets its candidate name with the least number of marks in front that makes it differ from all
names before it (`isLeastMarked_nameFor`). There is such a number, since a table with `n` names
cannot be in the way of `n + 1` different ones. So adding a flag takes no name away from another one
(`lookup?_addPlace_nameFor`), and in the end every flag for a place is the one that its name stands
for, while every reserved name still stands for an external flag (`names_of_ofOperation`).
-/

namespace ApiCommand

/-! ## Marks -/

/-- The text `name` with `k` copies of `mark` in front. -/
def marked (mark : String) (k : Nat) (name : String) : String :=
  match k with
  | 0 => name
  | k + 1 => mark ++ marked mark k name

/-- A mark in front of a name counts as one more. -/
theorem marked_append (mark : String) (k : Nat) (name : String) :
    marked mark k (mark ++ name) = marked mark (k + 1) name := by
  induction k with
  | zero => rfl
  | succ k ih => rw [marked, ih, ← marked]

/-- Every mark makes a name longer. -/
theorem length_marked (mark : String) (k : Nat) (name : String) :
    (marked mark k name).length = k * mark.length + name.length := by
  induction k with
  | zero => simp [marked]
  | succ k ih =>
    rw [marked, String.length_append, ih, Nat.succ_mul]
    omega

/-- Names with different numbers of marks differ. -/
theorem marked_injective {mark : String} (hmark : 0 < mark.length) (name : String) :
    Function.Injective fun k => marked mark k name := by
  intro j k h
  have hlength : j * mark.length + name.length = k * mark.length + name.length := by
    rw [← length_marked, ← length_marked]
    exact congrArg String.length h
  exact Nat.eq_of_mul_eq_mul_right hmark (Nat.add_right_cancel hlength)

/-- The name is the candidate with the least number of marks in front that makes it differ from all
names that are taken. -/
def IsLeastMarked (taken : String → Prop) (mark candidate name : String) : Prop :=
  ¬taken name ∧ ∃ k, name = marked mark k candidate ∧ ∀ j < k, taken (marked mark j candidate)

section Fresh

variable {α : Type} (taken : Dict α) (mark : String)

/-- The search puts marks in front as long as the name is taken and there is fuel. -/
theorem exists_freshName_eq (fuel : Nat) (name : String) :
    ∃ k ≤ fuel, freshName taken mark fuel name = marked mark k name ∧
      (∀ j < k, Dict.contains taken (marked mark j name)) ∧
      (k < fuel → ¬Dict.contains taken (marked mark k name)) := by
  induction fuel generalizing name with
  | zero => exact ⟨0, Nat.le_refl 0, rfl, fun j hj => absurd hj (Nat.not_lt_zero j), by simp⟩
  | succ fuel ih =>
    by_cases htaken : Dict.contains taken name
    · -- The search goes on from the name with one mark, so there is one mark more in the end.
      obtain ⟨k, hk, heq, hbefore, hend⟩ := ih (mark ++ name)
      refine ⟨k + 1, Nat.succ_le_succ hk, ?_, ?_, ?_⟩
      · rw [freshName, if_pos htaken, heq, marked_append]
      · intro j hj
        cases j with
        | zero => exact htaken
        | succ j =>
          rw [← marked_append]
          exact hbefore j (Nat.lt_of_succ_lt_succ hj)
      · intro hlt
        rw [← marked_append]
        exact hend (Nat.lt_of_succ_lt_succ hlt)
    · refine ⟨0, Nat.zero_le _, ?_, fun j hj => absurd hj (Nat.not_lt_zero j), fun _ => htaken⟩
      rw [freshName, if_neg htaken, marked]

variable {mark}

/-- A dictionary contains at most as many different names as it has entries. -/
theorem le_length_of_contains_marked (hmark : 0 < mark.length) (name : String) {n : Nat}
    (h : ∀ j < n, Dict.contains taken (marked mark j name)) : n ≤ taken.length := by
  have hnodup : ((List.range n).map fun j => marked mark j name).Nodup :=
    List.Nodup.map (marked_injective hmark name) List.nodup_range
  have hsubset : ((List.range n).map fun j => marked mark j name) ⊆ taken.map Prod.fst := by
    intro other hother
    obtain ⟨j, hj, rfl⟩ := List.mem_map.mp hother
    obtain ⟨v, hv⟩ := Dict.exists_mem_of_contains (h j (List.mem_range.mp hj))
    exact List.mem_map_of_mem hv
  simpa using (hnodup.subperm hsubset).length_le

/-- There is fuel for as many marks as a table can make necessary, so the search ends with a name
that is not taken. -/
theorem isLeastMarked_freshName (hmark : 0 < mark.length) (name : String) :
    IsLeastMarked (fun other => Dict.contains taken other) mark name
      (freshName taken mark taken.length name) := by
  obtain ⟨k, hk, heq, hbefore, hend⟩ := exists_freshName_eq taken mark taken.length name
  refine ⟨fun htaken => ?_, k, heq, hbefore⟩
  rw [heq] at htaken
  rcases Nat.lt_or_eq_of_le hk with hlt | rfl
  · exact hend hlt htaken
  · -- If the fuel is used up, then one more name is taken than there are in the table.
    have hle : taken.length + 1 ≤ taken.length := by
      refine le_length_of_contains_marked taken hmark name fun j hj => ?_
      rcases Nat.lt_or_eq_of_le (Nat.le_of_lt_succ hj) with hlt | rfl
      · exact hbefore j hlt
      · exact htaken
    omega

end Fresh

namespace FlagSet

/-! ## The table of names -/

/-- The table has the names of the flags and no others. -/
structure Indexed (s : FlagSet) : Prop where
  /-- A name in the table is that of the flag it stands for. -/
  flag_of_lookup : ∀ {name : String} {id : Nat}, s.lookup? name = some id →
    ∃ f, s.flag? id = some f ∧ f.name = name
  /-- The name of each flag is in the table. -/
  lookup_of_flag : ∀ {id : Nat} {f : Flag}, s.flag? id = some f → (s.lookup? f.name).isSome

/-- The table finds a flag that is added under its name, and the others as before. -/
theorem lookup?_push (s : FlagSet) (f : Flag) (name : String) :
    (s.push f).lookup? name = if f.name = name then some s.flags.length else s.lookup? name :=
  Dict.get?_insert _ _ _ _

/-- The flag for a new place is found under its name. -/
theorem lookup?_addPlace (s : FlagSet) (name : String) (hidden : Bool) (p : Place)
    (other : String) :
    (s.addPlace name hidden p).lookup? other =
      if name = other then some s.flags.length else s.lookup? other := by
  rw [← lookup?_push s { name, role := .place p, hidden }]
  unfold addPlace
  split <;> rfl

/-- The table stays complete when a flag is added. -/
theorem Indexed.push {s : FlagSet} (h : s.Indexed) (f : Flag) : (s.push f).Indexed where
  flag_of_lookup := by
    intro name id hid
    rw [lookup?_push] at hid
    rw [flag?_push]
    split at hid
    next hname =>
      cases hid
      exact ⟨f, if_pos rfl, hname⟩
    next =>
      obtain ⟨g, hg, hname⟩ := h.flag_of_lookup hid
      -- The numbers of flags that were there differ from that of the new one.
      have hne : id ≠ s.flags.length := Nat.ne_of_lt (List.getElem?_eq_some_iff.mp hg).1
      exact ⟨g, by rw [if_neg hne, hg], hname⟩
  lookup_of_flag := by
    intro id g hg
    rw [lookup?_push]
    rw [flag?_push] at hg
    split
    next => rfl
    next hne =>
      split at hg
      next =>
        cases hg
        -- A flag that is there has a name of its own, unless the new one took it over.
        exact absurd rfl hne
      next => exact h.lookup_of_flag hg

/-- The table stays complete when a place is added. -/
theorem Indexed.addPlace {s : FlagSet} (h : s.Indexed) (name : String) (hidden : Bool)
    (p : Place) : (s.addPlace name hidden p).Indexed := by
  have hpush := h.push { name, role := .place p, hidden }
  unfold FlagSet.addPlace
  split <;> exact ⟨hpush.flag_of_lookup, hpush.lookup_of_flag⟩

/-- The table stays complete when an external flag is added. -/
theorem Indexed.addExternal {s : FlagSet} (h : s.Indexed) (name : String) (e : External) :
    (s.addExternal name e).Indexed := by
  have hpush := h.push { name, role := .external e }
  unfold FlagSet.addExternal
  split
  · exact ⟨hpush.flag_of_lookup, hpush.lookup_of_flag⟩
  · exact hpush

/-- The table starts out complete. -/
theorem indexed_ofReserved (reserved : List String) (extras : List (String × External)) :
    (ofReserved reserved extras).Indexed :=
  ofReserved_induction reserved extras
    { flag_of_lookup := fun hid => by cases hid
      lookup_of_flag := fun {_ _} hf => by cases hf }
    fun _ name e hs => hs.addExternal name e

/-- The table is complete while properties are added. -/
theorem indexed_of_grown {op : Descriptor} {start s : FlagSet} (hstart : start.Indexed)
    (h : Grown op start s) : s.Indexed := by
  induction h with
  | start => exact hstart
  | positionals ids _ ih => exact ⟨ih.flag_of_lookup, ih.lookup_of_flag⟩
  | root _ _ ih => exact ih.addPlace _ _ _
  | inside _ _ _ _ ih => exact ih.addPlace _ _ _

/-- The names in the table are those of the flags so far. -/
theorem Indexed.contains_iff {s : FlagSet} (h : s.Indexed) {name : String} :
    Dict.contains s.names name ↔ ∃ id < s.flags.length, s.name id = name := by
  constructor
  · intro hname
    obtain ⟨id, hid⟩ := Option.isSome_iff_exists.mp hname
    obtain ⟨f, hf, rfl⟩ := h.flag_of_lookup hid
    exact ⟨id, (List.getElem?_eq_some_iff.mp hf).1, name_of_flag? hf⟩
  · rintro ⟨id, hid, rfl⟩
    have hf : s.flag? id = some s.flags[id] := List.getElem?_eq_getElem hid
    rw [name_of_flag? hf]
    exact h.lookup_of_flag hf

/-! ## Names that are given -/

theorem length_conflictMark_pos (isConfig : Bool) : 0 < (conflictMark isConfig).length := by
  cases isConfig <;> decide

/-- A new name has no more marks than make it differ from the names that are there. -/
theorem isLeastMarked_nameFor {s : FlagSet} (h : s.Indexed) (isConfig : Bool)
    (candidate : String) :
    IsLeastMarked (fun name => ∃ id < s.flags.length, s.name id = name) (conflictMark isConfig)
      candidate (s.nameFor isConfig candidate) := by
  have hfresh := isLeastMarked_freshName s.names (length_conflictMark_pos isConfig) candidate
  simp only [h.contains_iff] at hfresh
  exact hfresh

/-- Adding a flag takes no name away from another one. -/
theorem lookup?_addPlace_nameFor {s : FlagSet} (isConfig : Bool) (candidate : String)
    (hidden : Bool) (p : Place) {name : String} {id : Nat} (h : s.lookup? name = some id) :
    (s.addPlace (s.nameFor isConfig candidate) hidden p).lookup? name = some id := by
  have hfresh := (isLeastMarked_freshName s.names (length_conflictMark_pos isConfig) candidate).1
  rw [lookup?_addPlace, if_neg, h]
  rintro rfl
  exact hfresh (Option.isSome_iff_exists.mpr ⟨id, h⟩)

/-- Names that are there stay when a place is added. -/
theorem name_addPlace_of_lt {s : FlagSet} (name : String) (hidden : Bool) (p : Place) {id : Nat}
    (h : id < s.flags.length) : (s.addPlace name hidden p).name id = s.name id := by
  rw [FlagSet.name, flag?_addPlace, if_neg (Nat.ne_of_lt h), FlagSet.name]

/-- The last flag has the name that it was added under. -/
theorem name_addPlace_length (s : FlagSet) (name : String) (hidden : Bool) (p : Place) :
    (s.addPlace name hidden p).name s.flags.length = name := by
  rw [FlagSet.name, flag?_addPlace, if_pos rfl]
  rfl

/-- The candidate for the name of the flag for a place. -/
def candidate (s : FlagSet) (p : Place) : String :=
  match p.parent with
  | none => rootCandidate p.property
  | some a => childCandidate (s.name a) p.property

/-- The name of a flag for a place is the flag's own, and it has no more marks than the names
before it make necessary. -/
structure WellNamed (s : FlagSet) : Prop where
  lookup?_name : ∀ {id : Nat} {p : Place}, s.place? id = some p → s.lookup? (s.name id) = some id
  isLeastMarked : ∀ {id : Nat} {p : Place}, s.place? id = some p →
    IsLeastMarked (fun name => ∃ other < id, s.name other = name) (conflictMark p.isConfig)
      (s.candidate p) (s.name id)

/-- Without places, there are no names to be right or wrong. -/
theorem NoPlaces.wellNamed {s : FlagSet} (h : s.NoPlaces) : s.WellNamed where
  lookup?_name := by
    intro id p hp
    rw [h.place?_eq] at hp
    cases hp
  isLeastMarked := by
    intro id p hp
    rw [h.place?_eq] at hp
    cases hp

/-- A flag that is added under a new name leaves all names as they should be. -/
theorem WellNamed.addPlace {s : FlagSet} (h : s.WellNamed) (hindexed : s.Indexed)
    (hnested : s.Nested) (hidden : Bool) {p : Place}
    (hparent : ∀ a ∈ p.parent, a < s.flags.length) :
    (s.addPlace (s.nameFor p.isConfig (s.candidate p)) hidden p).WellNamed := by
  -- Candidates refer to names that were given earlier, and these stay.
  have hcandidate : ∀ q : Place, (∀ a ∈ q.parent, a < s.flags.length) →
      (s.addPlace (s.nameFor p.isConfig (s.candidate p)) hidden p).candidate q = s.candidate q := by
    intro q hq
    unfold candidate
    cases hparent : q.parent with
    | none => rfl
    | some a => simp only [name_addPlace_of_lt _ _ _ (hq a hparent)]
  constructor
  · intro id q hq
    rw [place?_addPlace] at hq
    split at hq
    next hid =>
      rw [hid, name_addPlace_length, lookup?_addPlace, if_pos rfl]
    next =>
      rw [name_addPlace_of_lt _ _ _ (lt_length_of_place? hq)]
      exact lookup?_addPlace_nameFor _ _ _ _ (h.lookup?_name hq)
  · intro id q hq
    rw [place?_addPlace] at hq
    have hbefore : ∀ n ≤ s.flags.length, (fun name => ∃ other < n,
        (s.addPlace (s.nameFor p.isConfig (s.candidate p)) hidden p).name other = name) =
          fun name => ∃ other < n, s.name other = name := by
      intro n hn
      funext name
      refine propext (exists_congr fun other => and_congr_right fun hother => ?_)
      rw [name_addPlace_of_lt _ _ _ (Nat.lt_of_lt_of_le hother hn)]
    split at hq
    next hid =>
      cases hq
      rw [hid, name_addPlace_length, hcandidate _ hparent, hbefore _ (Nat.le_refl _)]
      exact isLeastMarked_nameFor hindexed _ _
    next =>
      have hlt := lt_length_of_place? hq
      have hqparent : ∀ a ∈ q.parent, a < s.flags.length := fun a ha =>
        Nat.lt_trans (hnested.inside hq ha).1 hlt
      rw [name_addPlace_of_lt _ _ _ hlt, hcandidate _ hqparent, hbefore _ (Nat.le_of_lt hlt)]
      exact h.isLeastMarked hq

section Grown

variable {op : Descriptor} {start s : FlagSet}

/-- Names are as they should be while properties are added. -/
theorem wellNamed_of_grown (hstart : start.NoPlaces) (hindexed : start.Indexed)
    (h : Grown op start s) : s.WellNamed := by
  induction h with
  | start => exact hstart.wellNamed
  | positionals ids _ ih => exact ⟨ih.lookup?_name, ih.isLeastMarked⟩
  | @root s d h _ ih =>
    exact ih.addPlace (p := Place.ofRoot s.flags.length d) (indexed_of_grown hindexed h)
      (nested_of_grown hstart h) _ (fun a ha => by cases ha)
  | @inside s a f q d h hf _ _ ih =>
    have hlt : a < s.flags.length := (List.getElem?_eq_some_iff.mp hf).1
    have hcandidate : s.candidate (q.inside a d) = childCandidate f.name d.property := by
      simp only [candidate, Place.inside, name_of_flag? hf]
    rw [← hcandidate]
    refine ih.addPlace (p := q.inside a d) (indexed_of_grown hindexed h)
      (nested_of_grown hstart h) _ fun b hb => ?_
    cases hb
    exact hlt

/-- A name that stands for a flag keeps standing for it. -/
theorem lookup?_of_grown (h : Grown op start s) {name : String} {id : Nat}
    (hid : start.lookup? name = some id) : s.lookup? name = some id := by
  induction h with
  | start => exact hid
  | positionals ids _ ih => exact ih
  | root _ _ ih => exact lookup?_addPlace_nameFor _ _ _ _ ih
  | inside _ _ _ _ ih => exact lookup?_addPlace_nameFor _ _ _ _ ih

end Grown

/-! ## Reserved names -/

/-- An external flag is found under its name. -/
theorem lookup?_addExternal (s : FlagSet) (name : String) (e : External) (other : String) :
    (s.addExternal name e).lookup? other =
      if name = other then some s.flags.length else s.lookup? other := by
  rw [← lookup?_push s { name, role := .external e }]
  unfold addExternal
  split <;> rfl

/-- Adding external flags puts their names into the table, and those that are there stay. -/
theorem isSome_lookup?_foldl_addExternal (entries : List (String × External)) {s : FlagSet}
    {name : String} (h : name ∈ entries.map Prod.fst ∨ (s.lookup? name).isSome) :
    ((entries.foldl (fun s e => s.addExternal e.1 e.2) s).lookup? name).isSome := by
  induction entries generalizing s with
  | nil => exact h.resolve_left List.not_mem_nil
  | cons e rest ih =>
    refine ih ?_
    rw [lookup?_addExternal]
    by_cases hname : e.1 = name
    · exact Or.inr (by simp [hname])
    · rw [if_neg hname]
      refine h.imp_left fun hmem => ?_
      exact (List.mem_cons.mp hmem).resolve_left fun heq => hname heq.symm

/-- A name that is reserved stands for an external flag. -/
theorem exists_lookup?_ofReserved {reserved : List String} {extras : List (String × External)}
    {name : String} (h : name ∈ reserved ++ extras.map Prod.fst) :
    ∃ id f e, (ofReserved reserved extras).lookup? name = some id ∧
      (ofReserved reserved extras).flag? id = some f ∧ f.role = .external e := by
  have hname : name ∈ (reserved.map (fun name => (name, ({} : External))) ++ extras).map
      Prod.fst := by simpa using h
  obtain ⟨id, hid⟩ := Option.isSome_iff_exists.mp
    (isSome_lookup?_foldl_addExternal (s := {}) _ (Or.inl hname))
  obtain ⟨f, hf, -⟩ := (indexed_ofReserved reserved extras).flag_of_lookup hid
  have hplace : f.place? = none := by
    rw [← place?_of_flag? hf]
    exact (noPlaces_ofReserved reserved extras).place?_eq id
  cases hrole : f.role with
  | place p => simp [Flag.place?, hrole] at hplace
  | external e => exact ⟨id, f, e, hid, hf, hrole⟩

/-! ## The flags of an operation -/

/-- No two flags of an operation collide. Each flag for a place is the one that its name stands for,
so that all their names differ from each other and from the names that are reserved, and these still
stand for external flags. The search for a name ends: a flag has its candidate name with the least
number of marks in front that makes it differ from the names of all flags before it. -/
theorem names_of_ofOperation {op : Descriptor} {reserved : List String}
    {extras : List (String × External)} {s : FlagSet}
    (h : ofOperation op reserved extras = .ok s) :
    (∀ id ∈ s.roots ++ s.children, s.lookup? (s.name id) = some id) ∧
    ((s.roots ++ s.children).map s.name).Nodup ∧
    (∀ name ∈ reserved ++ extras.map Prod.fst,
      (∀ id ∈ s.roots ++ s.children, s.name id ≠ name) ∧
      ∃ id f e, s.lookup? name = some id ∧ s.flag? id = some f ∧ f.role = .external e) ∧
    ∀ id ∈ s.roots ++ s.children, ∃ p, s.place? id = some p ∧
      IsLeastMarked (fun name => ∃ other < id, s.name other = name) (conflictMark p.isConfig)
        (s.candidate p) (s.name id) := by
  have hgrown := grown_ofOperation h
  have hlisted := listed_of_grown (noPlaces_ofReserved reserved extras) hgrown
  have hnamed := wellNamed_of_grown (noPlaces_ofReserved reserved extras)
    (indexed_ofReserved reserved extras) hgrown
  have hlookup : ∀ id ∈ s.roots ++ s.children, s.lookup? (s.name id) = some id := by
    intro id hid
    obtain ⟨p, hp⟩ := hlisted.mem_iff.mp hid
    exact hnamed.lookup?_name hp
  refine ⟨hlookup, ?_, ?_, ?_⟩
  · refine List.Nodup.map_on (fun id hid other hother hname => ?_) hlisted.nodup
    have heq := hlookup id hid
    rw [hname, hlookup other hother] at heq
    exact (Option.some.inj heq).symm
  · intro name hname
    obtain ⟨id, f, e, hid, hf, he⟩ := exists_lookup?_ofReserved hname
    have hid := lookup?_of_grown hgrown hid
    have hf := flag?_of_isPrefix hgrown.isPrefix hf
    refine ⟨?_, id, f, e, hid, hf, he⟩
    -- A flag for a place is not external.
    rintro other hother rfl
    obtain ⟨p, hp⟩ := hlisted.mem_iff.mp hother
    rw [hlookup other hother] at hid
    cases hid
    rw [place?_of_flag? hf] at hp
    simp [Flag.place?, he] at hp
  · intro id hid
    obtain ⟨p, hp⟩ := hlisted.mem_iff.mp hid
    exact ⟨p, hp, hnamed.isLeastMarked hp⟩

/-- An operation with properties whose names collide with each other and with a reserved one. -/
def attach : Descriptor :=
  { name := "attach"
    parameters := .object [("help", .object [("x", .string)] []), ("param.help.x", .string)] []
    configs := .object [("help", .string)] [] }

/-- A name is marked twice if the first mark makes it that of a flag inside of another one. -/
theorem names_of_ofOperation_attach :
    ∃ s, ofOperation attach ["help", "help"] [] = .ok s ∧
      (s.roots ++ s.children).map s.name =
        ["param.help", "param.param.help.x", "config.help", "param.help.x"] ∧
      ∀ id ∈ s.roots ++ s.children, s.lookup? (s.name id) = some id := by
  have hrun : (match ofOperation attach ["help", "help"] [] with
      | .error _ => false
      | .ok s => (s.roots ++ s.children).map s.name ==
          ["param.help", "param.param.help.x", "config.help", "param.help.x"]) = true := by
    decide +kernel
  split at hrun
  next => cases hrun
  next s hs => exact ⟨s, hs, by simpa using hrun, (names_of_ofOperation hs).1⟩

end FlagSet

end ApiCommand
