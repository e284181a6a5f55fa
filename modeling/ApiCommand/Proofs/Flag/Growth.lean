import ApiCommand.Proofs.Flag.Synthesis

/-!
# How flag sets grow

The flags for an operation are made one at a time, each for a property of the operation or for a
property inside of a flag that is there already. `Grown` has one constructor for each of these
steps, and `grown_ofOperation` says that no other steps lead to the flags of an operation. What each
step preserves therefore holds of these flags: parents come before what is inside of them
(`nested_of_grown`), and the flags for places are listed once each (`listed_of_grown`).
-/

namespace ApiCommand

/-- What the flags inside of a value with the schema are made for: the properties of an object. -/
def Schema.inner (s : Schema) (isConfig : Bool) : List Declaration :=
  if s.isObject then s.declarations isConfig else []

/-- The operation asks for the flags of a property to be left out of help and completion. -/
def Descriptor.hides (op : Descriptor) (isConfig : Bool) (property : String) : Bool :=
  !isConfig && op.hidden.contains property

namespace FlagSet

/-! ## Steps -/

/-- The flag sets that adding flags for properties of an operation leads to, one at a time. -/
inductive Grown (op : Descriptor) (start : FlagSet) : FlagSet → Prop
  | start : Grown op start start
  | positionals {s : FlagSet} (ids : List Nat) :
      Grown op start s → Grown op start (s.withPositionals op.name ids)
  /-- A flag for a property of the operation. -/
  | root {s : FlagSet} {d : Declaration} :
      Grown op start s → d ∈ declarationsOf op →
      Grown op start
        (s.addPlace (s.nameFor d.isConfig (rootCandidate d.property))
          (op.hides d.isConfig d.property) (Place.ofRoot s.flags.length d))
  /-- A flag for a property inside of the flag `a`. -/
  | inside {s : FlagSet} {a : Nat} {f : Flag} {q : Place} {d : Declaration} :
      Grown op start s → s.flag? a = some f → f.place? = some q → d ∈ q.schema.inner q.isConfig →
      Grown op start
        (s.addPlace (s.nameFor d.isConfig (childCandidate f.name d.property)) f.hidden
          (q.inside a d))

/-- A flag for a place is put behind the others. -/
theorem flags_addPlace (s : FlagSet) (name : String) (hidden : Bool) (p : Place) :
    (s.addPlace name hidden p).flags = s.flags ++ [{ name, role := .place p, hidden }] := by
  unfold addPlace
  split <;> rfl

theorem length_addPlace (s : FlagSet) (name : String) (hidden : Bool) (p : Place) :
    (s.addPlace name hidden p).flags.length = s.flags.length + 1 := by
  rw [flags_addPlace, List.length_append, List.length_singleton]

theorem prefix_addPlace (s : FlagSet) (name : String) (hidden : Bool) (p : Place) :
    s.flags <+: (s.addPlace name hidden p).flags :=
  ⟨_, (flags_addPlace s name hidden p).symm⟩

/-- A place inside of another one is listed among the child flags. -/
theorem children_addPlace (s : FlagSet) (name : String) (hidden : Bool) (p : Place) :
    (s.addPlace name hidden p).children =
      if p.parent.isNone then s.children else s.children ++ [s.flags.length] := by
  unfold addPlace
  split <;> rfl

/-- A flag keeps its number when others are added. -/
theorem flag?_of_isPrefix {s t : FlagSet} (h : s.flags <+: t.flags) {id : Nat} {f : Flag}
    (hf : s.flag? id = some f) : t.flag? id = some f := by
  obtain ⟨added, hadded⟩ := h
  rw [flag?, ← hadded, List.getElem?_append_left (List.getElem?_eq_some_iff.mp hf).1]
  exact hf

section Grown

variable {op : Descriptor} {start : FlagSet}

/-- Adding the flags inside of a flag is done by steps, and flags that are there stay. -/
theorem Grown.addChildren {s : FlagSet} (hs : Grown op start s) {hidden : Bool} {parent : Nat}
    {parentName : String} {around : Place}
    (hparent : s.flag? parent = some { name := parentName, role := .place around, hidden }) :
    Grown op start (s.addChildren hidden parent parentName around around.schema) ∧
      s.flags <+: (s.addChildren hidden parent parentName around around.schema).flags := by
  refine addChildren_induction hidden
    (P := fun s parent parentName around schema t =>
      s.flag? parent = some { name := parentName, role := .place around, hidden } →
      around.schema = schema → Grown op start s → Grown op start t ∧ s.flags <+: t.flags)
    (Q := fun s parent parentName around required properties t =>
      s.flag? parent = some { name := parentName, role := .place around, hidden } →
      (∀ e ∈ properties, ⟨around.isConfig, e.1, e.2, required.contains e.1⟩ ∈
        around.schema.inner around.isConfig) →
      Grown op start s → Grown op start t ∧ s.flags <+: t.flags)
    ?_ ?_ ?_ ?_ s parent parentName around around.schema hparent rfl hs
  · intro s parent parentName around schema t hobject ih hparent hschema hs
    -- The properties of an object are what its schema declares.
    refine ih hparent (fun e he => ?_) hs
    rw [hschema, Schema.inner, if_pos hobject]
    exact List.mem_map_of_mem he
  · intro s parent parentName around schema _ _ _ hs
    exact ⟨hs, List.prefix_refl _⟩
  · intro s parent parentName around required _ _ hs
    exact ⟨hs, List.prefix_refl _⟩
  · intro s parent parentName around required property schema rest inner t name place
      ihinside ihrest hparent hinner hs
    obtain ⟨hhead, htail⟩ := List.forall_mem_cons.mp hinner
    -- The new flag is the parent of what is inside of it, and it is still there for the rest.
    have hnext := Grown.inside hs hparent rfl hhead
    have hnew : (s.addPlace name hidden place).flag? s.flags.length =
        some { name := name, role := .place place, hidden } := by
      rw [flag?_addPlace, if_pos rfl]
    obtain ⟨hgrown, hprefix⟩ := ihinside hnew rfl hnext
    have hadded : s.flags <+: inner.flags :=
      (prefix_addPlace s name hidden place).trans hprefix
    obtain ⟨hgrown, hprefix⟩ := ihrest (flag?_of_isPrefix hadded hparent) htail hgrown
    exact ⟨hgrown, hadded.trans hprefix⟩

/-- Flags that were there at the start stay. -/
theorem Grown.isPrefix (h : Grown op start s) : start.flags <+: s.flags := by
  induction h with
  | start => exact List.prefix_refl _
  | positionals ids _ ih => exact ih
  | root _ _ ih => exact ih.trans (prefix_addPlace _ _ _ _)
  | inside _ _ _ _ ih => exact ih.trans (prefix_addPlace _ _ _ _)

/-- Adding a property adds flags of an operation one at a time. -/
theorem Grown.addProperty {s : FlagSet} (h : Grown op start s) {d : Declaration}
    (hd : d ∈ declarationsOf op) :
    Grown op start (s.addProperty d.isConfig d.required (op.hides d.isConfig d.property) d.property
      d.schema) := by
  let name := s.nameFor d.isConfig (rootCandidate d.property)
  let hidden := op.hides d.isConfig d.property
  let place := Place.ofRoot s.flags.length d
  have hnew : (s.addPlace name hidden place).flag? s.flags.length =
      some { name := name, role := .place place, hidden } := by
    rw [flag?_addPlace, if_pos rfl]
  exact ((h.root hd).addChildren hnew).1

/-- Adding all properties of a schema, too, adds flags one at a time. -/
theorem Grown.addProperties {s : FlagSet} (h : Grown op start s) (isConfig : Bool) :
    Grown op start (s.addProperties isConfig (if isConfig then [] else op.hidden)
      (op.inputSchema isConfig)) := by
  unfold FlagSet.addProperties
  refine List.foldlRecOn (motive := Grown op start) _ _ h fun t ht e he => ?_
  have hd : ⟨isConfig, e.1, e.2, (op.inputSchema isConfig).requires e.1⟩ ∈ declarationsOf op :=
    mem_declarationsOf_iff.mpr ⟨e, he, rfl⟩
  cases isConfig <;> exact ht.addProperty hd

/-- The flags for an operation are made by these steps. -/
theorem grown_ofOperation {reserved : List String} {extras : List (String × External)}
    {s : FlagSet} (h : ofOperation op reserved extras = .ok s) :
    Grown op (ofReserved reserved extras) s := by
  obtain ⟨ids, -, rfl⟩ := ofOperation_eq_ok_iff.mp h
  exact ((Grown.start.addProperties false).positionals ids).addProperties true

end Grown

/-! ## Parents -/

/-- A flag that stands for a place is one of the set. -/
theorem lt_length_of_place? {s : FlagSet} {id : Nat} {p : Place} (h : s.place? id = some p) :
    id < s.flags.length := by
  obtain ⟨f, hf, -⟩ := Option.bind_eq_some_iff.mp h
  exact (List.getElem?_eq_some_iff.mp hf).1

/-- A property inside of a config belongs to the config. -/
theorem isConfig_of_mem_inner {schema : Schema} {isConfig : Bool} {d : Declaration}
    (h : d ∈ schema.inner isConfig) : d.isConfig = isConfig := by
  unfold Schema.inner at h
  split at h
  · obtain ⟨e, -, rfl⟩ := List.mem_map.mp h
    rfl
  · cases h

/-- Each place that is inside of another one has the flag for that one as its parent, and parents
come first. -/
structure Nested (s : FlagSet) : Prop where
  /-- A place without a parent is a whole value. -/
  root : ∀ {id : Nat} {p : Place}, s.place? id = some p → p.parent = none →
    p.root = id ∧ p.path = []
  /-- A place with a parent is one step further inside. -/
  inside : ∀ {id a : Nat} {p : Place}, s.place? id = some p → p.parent = some a →
    a < id ∧ ∃ q, s.place? a = some q ∧ p = q.inside a p.declaration ∧ p.isConfig = q.isConfig

/-- The path of a flag with a parent is that of the parent and the flag's own property. -/
theorem Nested.path_of_parent {s : FlagSet} (h : s.Nested) {id a : Nat} {p : Place}
    (hp : s.place? id = some p) (hparent : p.parent = some a) :
    ∃ q, s.place? a = some q ∧ p.root = q.root ∧ p.path = q.path ++ [p.property] := by
  obtain ⟨-, q, hq, hpq, -⟩ := h.inside hp hparent
  exact ⟨q, hq, by rw [hpq]; rfl, congrArg Place.path hpq⟩

/-- A flag for the whole of a value is inside of no other flag. -/
theorem Nested.parent_eq_none {s : FlagSet} (h : s.Nested) {id : Nat} {p : Place}
    (hp : s.place? id = some p) (hpath : p.path = []) : p.parent = none := by
  refine Option.eq_none_iff_forall_ne_some.mpr fun a ha => ?_
  obtain ⟨q, -, -, hpath'⟩ := h.path_of_parent hp ha
  simp [hpath'] at hpath

/-- How places are inside of each other belongs to the shape of a set. -/
theorem Nested.congr {s t : FlagSet} (hs : s.Nested) (h : s.blank = t.blank) : t.Nested where
  root := by
    intro id p hp hparent
    rw [← place?_congr h] at hp
    exact hs.root hp hparent
  inside := by
    intro id a p hp hparent
    rw [← place?_congr h] at hp ⊢
    exact hs.inside hp hparent

/-- A new place is inside of one that is there, or a root place of its own. -/
theorem Nested.addPlace {s : FlagSet} (h : s.Nested) (name : String) (hidden : Bool) {p : Place}
    (hroot : p.parent = none → p.root = s.flags.length ∧ p.path = [])
    (hinside : ∀ a, p.parent = some a →
      ∃ q, s.place? a = some q ∧ p = q.inside a p.declaration ∧ p.isConfig = q.isConfig) :
    (s.addPlace name hidden p).Nested where
  root := by
    -- A root flag is the new one or was there before.
    intro id p' hp' hparent
    rw [place?_addPlace] at hp'
    split at hp'
    next hid =>
      cases hp'
      rw [hid]
      exact hroot hparent
    next => exact h.root hp' hparent
  inside := by
    intro id a p' hp' hparent
    -- A flag with a parent comes behind it, whether it is the new one or not.
    obtain ⟨hlt, q, hq, hspec⟩ : a < id ∧ ∃ q, s.place? a = some q ∧
        p' = q.inside a p'.declaration ∧ p'.isConfig = q.isConfig := by
      rw [place?_addPlace] at hp'
      split at hp'
      next hid =>
        cases hp'
        obtain ⟨q, hq, hspec⟩ := hinside a hparent
        exact ⟨hid ▸ lt_length_of_place? hq, q, hq, hspec⟩
      next => exact h.inside hp' hparent
    exact ⟨hlt, q, place?_addPlace_of_eq_some hq name hidden p, hspec⟩

/-! ## The lists of flags -/

/-- The flags for whole values and those for places inside of values are listed in their order. -/
structure Listed (s : FlagSet) : Prop where
  roots_eq : s.roots = (List.range s.flags.length).filter fun id =>
    (s.place? id).any fun p => p.parent.isNone
  children_eq : s.children = (List.range s.flags.length).filter fun id =>
    (s.place? id).any fun p => p.parent.isSome

/-- A listed flag is one that stands for a place. -/
theorem Listed.mem_iff {s : FlagSet} (h : s.Listed) {id : Nat} :
    id ∈ s.roots ++ s.children ↔ ∃ p, s.place? id = some p := by
  rw [List.mem_append, h.roots_eq, h.children_eq]
  simp only [List.mem_filter, List.mem_range]
  constructor
  · rintro (⟨-, hid⟩ | ⟨-, hid⟩) <;>
      exact ⟨_, (Option.any_eq_true _ _ |>.mp hid).choose_spec.1⟩
  · rintro ⟨p, hp⟩
    have hlt := lt_length_of_place? hp
    cases hparent : p.parent with
    | none => exact Or.inl ⟨hlt, by simp [hp, hparent]⟩
    | some a => exact Or.inr ⟨hlt, by simp [hp, hparent]⟩

/-- Root flags are those whose places have no parent. -/
theorem Listed.mem_roots_iff {s : FlagSet} (h : s.Listed) {id : Nat} {p : Place}
    (hp : s.place? id = some p) : id ∈ s.roots ↔ p.parent = none := by
  rw [h.roots_eq]
  simp [hp, lt_length_of_place? hp]

/-- No flag is listed twice. -/
theorem Listed.nodup {s : FlagSet} (h : s.Listed) : (s.roots ++ s.children).Nodup := by
  rw [h.roots_eq, h.children_eq]
  refine List.nodup_append.mpr ⟨List.nodup_range.filter _, List.nodup_range.filter _, ?_⟩
  -- A place has a parent or it has none.
  rintro id hroot _ hchild rfl
  have hroot := (List.mem_filter.mp hroot).2
  have hchild := (List.mem_filter.mp hchild).2
  cases hp : s.place? id with
  | none => simp [hp] at hroot
  | some p => cases hparent : p.parent <;> simp [hp, hparent] at hroot hchild

/-- A flag for a new place is listed behind those that are there. -/
theorem Listed.addPlace {s : FlagSet} (h : s.Listed) (name : String) (hidden : Bool) (p : Place) :
    (s.addPlace name hidden p).Listed := by
  have hfilter : ∀ test : Place → Bool,
      ((List.range (s.addPlace name hidden p).flags.length).filter fun id =>
          ((s.addPlace name hidden p).place? id).any test) =
        ((List.range s.flags.length).filter fun id => (s.place? id).any test) ++
          if test p then [s.flags.length] else [] := by
    intro test
    have hold : ∀ id ∈ List.range s.flags.length,
        (((s.addPlace name hidden p).place? id).any test) = (s.place? id).any test := by
      intro id hid
      rw [place?_addPlace, if_neg (Nat.ne_of_lt (List.mem_range.mp hid))]
    rw [length_addPlace, List.range_succ, List.filter_append, List.filter_congr hold]
    by_cases htest : test p <;> simp [place?_addPlace, htest]
  constructor
  · rw [hfilter, roots_addPlace, h.roots_eq]
    split <;> simp
  · rw [hfilter, children_addPlace, h.children_eq]
    cases p.parent <;> simp

section Grown

variable {op : Descriptor} {start s : FlagSet}

/-- Without places, there is nothing to be inside of. -/
theorem NoPlaces.nested {s : FlagSet} (h : s.NoPlaces) : s.Nested where
  root := by
    intro id p hp
    rw [h.place?_eq] at hp
    cases hp
  inside := by
    intro id a p hp
    rw [h.place?_eq] at hp
    cases hp

theorem NoPlaces.listed {s : FlagSet} (h : s.NoPlaces) : s.Listed where
  roots_eq := by simp [h.roots_eq, h.place?_eq]
  children_eq := by simp [h.children_eq, h.place?_eq]

/-- The flags of an operation have their parents before them at all times. -/
theorem nested_of_grown (hstart : start.NoPlaces) (h : Grown op start s) : s.Nested := by
  induction h with
  | start => exact hstart.nested
  | positionals ids _ ih => exact ⟨ih.root, ih.inside⟩
  | root _ _ ih => exact ih.addPlace _ _ (fun _ => ⟨rfl, rfl⟩) (fun a ha => by cases ha)
  | @inside s a f q d _ hf hq hd ih =>
    refine ih.addPlace _ _ (fun hparent => by cases hparent) ?_
    intro b hb
    cases hb
    refine ⟨q, ?_, rfl, isConfig_of_mem_inner hd⟩
    rw [place?, hf]
    exact hq

/-- The flags of an operation are listed at all times. -/
theorem listed_of_grown (hstart : start.NoPlaces) (h : Grown op start s) : s.Listed := by
  induction h with
  | start => exact hstart.listed
  | positionals ids _ ih => exact ⟨ih.roots_eq, ih.children_eq⟩
  | root _ _ ih => exact ih.addPlace _ _ _
  | inside _ _ _ _ ih => exact ih.addPlace _ _ _

end Grown

section Operation

variable {op : Descriptor} {reserved : List String} {extras : List (String × External)}
  {s : FlagSet} (h : ofOperation op reserved extras = .ok s)

include h

/-- Every place of an operation is inside of the place of its parent. -/
theorem nested_ofOperation : s.Nested :=
  nested_of_grown (noPlaces_ofReserved reserved extras) (grown_ofOperation h)

/-- The lists of root flags and of child flags are complete and in order. -/
theorem listed_ofOperation : s.Listed :=
  listed_of_grown (noPlaces_ofReserved reserved extras) (grown_ofOperation h)

end Operation

/-- Showing hidden flags does not change the lists. -/
theorem Listed.revealHidden {s : FlagSet} (h : s.Listed) : s.revealHidden.Listed := by
  have hplace := funext s.place?_revealHidden
  constructor
  all_goals rw [hplace, length_revealHidden]
  · exact h.roots_eq
  · exact h.children_eq

theorem listed_flagsFor {op : Descriptor} {showHidden : Bool} {s : FlagSet}
    (h : Call.flagsFor op showHidden = .ok s) : s.Listed :=
  flagsFor_induction h listed_ofOperation Listed.revealHidden

end FlagSet

end ApiCommand
