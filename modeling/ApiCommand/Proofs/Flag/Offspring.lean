import ApiCommand.Proofs.Flag.Growth

/-!
# The flags inside of flags

Each flag for a place has inside of it the flags for the properties of its own schema, once each and
in order. This is shown along the recursion that adds them: adding the flags below a flag fills this
one and all that are added, and leaves the others alone (`Fills`), so that in the end no flag lacks
any (`complete_ofOperation`).
-/

namespace ApiCommand

namespace FlagSet

/-! ## Declarations with a parent -/

/-- The declarations that the flags with a parent were made for, in order; without a parent, those
of the root flags. -/
def offspring (s : FlagSet) (parent : Option Nat) : List Declaration :=
  s.flags.filterMap fun f => f.place?.bind fun p =>
    if p.parent = parent then some p.declaration else none

/-- A parent has the declarations of the flags inside of its own. -/
theorem mem_offspring_iff {s : FlagSet} {parent : Option Nat} {d : Declaration} :
    d ∈ s.offspring parent ↔
      ∃ id p, s.place? id = some p ∧ p.parent = parent ∧ p.declaration = d := by
  simp only [offspring, List.mem_filterMap, Option.bind_eq_some_iff, Option.ite_none_right_eq_some,
    Option.some.injEq]
  constructor
  · rintro ⟨f, hf, p, hp, hparent, hd⟩
    obtain ⟨id, hid⟩ := List.getElem?_of_mem hf
    exact ⟨id, p, (place?_of_flag? hid).trans hp, hparent, hd⟩
  · rintro ⟨id, p, hp, hparent, hd⟩
    obtain ⟨f, hf, hp⟩ := Option.bind_eq_some_iff.mp hp
    exact ⟨f, List.mem_of_getElem? hf, p, hp, hparent, hd⟩

/-- A new place adds one declaration, to its own parent. -/
theorem offspring_addPlace (s : FlagSet) (name : String) (hidden : Bool) (p : Place)
    (parent : Option Nat) :
    (s.addPlace name hidden p).offspring parent =
      s.offspring parent ++ if p.parent = parent then [p.declaration] else [] := by
  rw [offspring, flags_addPlace, List.filterMap_append, offspring]
  congr 1
  by_cases hparent : p.parent = parent <;> simp [Flag.place?, hparent]

/-- Places keep their numbers when flags are added. -/
theorem place?_eq_of_isPrefix {s t : FlagSet} (h : s.flags <+: t.flags) {id : Nat}
    (hid : id < s.flags.length) : t.place? id = s.place? id := by
  have hf : s.flag? id = some s.flags[id] := List.getElem?_eq_getElem hid
  rw [place?_of_flag? hf, place?_of_flag? (flag?_of_isPrefix h hf)]

/-! ## Adding flags below a flag -/

/-- No flag is inside of one that is yet to come. -/
def Closed (s : FlagSet) : Prop := ∀ id, s.flags.length ≤ id → s.offspring (some id) = []

/-- What adding flags below the flag `parent` leads to: this flag gets flags for the given
declarations, each added flag gets those for the properties of its own schema, and no other flag
gets any. -/
structure Fills (s t : FlagSet) (parent : Nat) (declarations : List Declaration) : Prop where
  isPrefix : s.flags <+: t.flags
  offspring_eq : ∀ {o : Option Nat}, (∀ a ∈ o, a < s.flags.length) →
    t.offspring o = s.offspring o ++ if o = some parent then declarations else []
  offspring_added : ∀ {id : Nat} {p : Place}, s.flags.length ≤ id → t.place? id = some p →
    t.offspring (some id) = p.schema.inner p.isConfig
  closed : t.Closed

/-- Adding no flags at all fills in no declarations. -/
theorem Fills.nil {s : FlagSet} (h : s.Closed) (parent : Nat) : s.Fills s parent [] where
  isPrefix := List.prefix_refl _
  offspring_eq := by simp
  offspring_added := fun hid hp => absurd (lt_length_of_place? hp) (Nat.not_lt.mpr hid)
  closed := h

/-- Nothing is inside of a flag that is yet to come, if parents come first. -/
theorem Closed.addPlace {s : FlagSet} (h : s.Closed) (name : String) (hidden : Bool) {p : Place}
    (hparent : ∀ a ∈ p.parent, a < s.flags.length) : (s.addPlace name hidden p).Closed := by
  -- The parent of the new flag is there already, so it is none of those that are yet to come.
  intro id hid
  rw [length_addPlace] at hid
  rw [offspring_addPlace, h id (by omega), if_neg, List.append_nil]
  intro heq
  exact absurd (hparent id heq) (by omega)

/-- One more flag, with all that is inside of it, in front of others. -/
theorem Fills.cons {s u t : FlagSet} (hs : s.Closed) {name : String} {hidden : Bool} {p : Place}
    {parent : Nat} {rest : List Declaration} (hlt : parent < s.flags.length)
    (hparent : p.parent = some parent)
    (hinside : (s.addPlace name hidden p).Fills u s.flags.length (p.schema.inner p.isConfig))
    (hrest : u.Fills t parent rest) : s.Fills t parent (p.declaration :: rest) := by
  have hlength := length_addPlace s name hidden p
  have hu : s.flags.length < u.flags.length := by
    have := hinside.isPrefix.length_le
    omega
  refine ⟨((prefix_addPlace s name hidden p).trans hinside.isPrefix).trans hrest.isPrefix,
    ?_, ?_, hrest.closed⟩
  · intro o ho
    -- What is added inside of the new flag does not show in flags that were there before.
    have hnew : o ≠ some s.flags.length := fun heq => Nat.lt_irrefl _ (ho _ heq)
    rw [hrest.offspring_eq fun a ha => Nat.lt_trans (ho a ha) hu,
      hinside.offspring_eq fun a ha => by rw [hlength]; exact Nat.lt_succ_of_lt (ho a ha),
      if_neg hnew, offspring_addPlace, hparent]
    by_cases heq : o = some parent
    · simp [heq]
    · rw [if_neg heq, if_neg heq, if_neg fun h => heq h.symm]
      simp
  · intro id q hid hq
    rcases Nat.lt_or_ge id u.flags.length with hidu | hidu
    · -- The flags that were added before `rest` are not touched by it.
      have hne : some id ≠ some parent := fun heq => by
        cases heq
        exact Nat.lt_irrefl _ (Nat.lt_of_lt_of_le hlt hid)
      rw [hrest.offspring_eq fun a ha => by cases ha; exact hidu, if_neg hne, List.append_nil]
      rw [place?_eq_of_isPrefix hrest.isPrefix hidu] at hq
      rcases Nat.lt_or_eq_of_le hid with hlt' | rfl
      · exact hinside.offspring_added (by omega) hq
      · -- The new flag had none before.
        have hold : (s.addPlace name hidden p).offspring (some s.flags.length) = [] := by
          rw [offspring_addPlace, hs _ (Nat.le_refl _), hparent, if_neg, List.append_nil]
          intro heq
          cases heq
          exact Nat.lt_irrefl _ hlt
        have hqp : q = p := by
          rw [place?_eq_of_isPrefix hinside.isPrefix (by omega), place?_addPlace, if_pos rfl] at hq
          exact (Option.some.inj hq).symm
        rw [hinside.offspring_eq fun a ha => by cases ha; omega, hold, if_pos rfl, hqp,
          List.nil_append]
    · exact hrest.offspring_added hidu hq

/-- Adding the flags inside of a flag makes one for each property of its schema. -/
theorem Closed.fills_addChildren {s : FlagSet} (hs : s.Closed) (hidden : Bool) {parent : Nat}
    (hlt : parent < s.flags.length) (parentName : String) (around : Place) (schema : Schema) :
    s.Fills (s.addChildren hidden parent parentName around schema) parent
      (schema.inner around.isConfig) := by
  refine addChildren_induction hidden
    (P := fun s parent _ around schema t =>
      parent < s.flags.length → s.Closed → s.Fills t parent (schema.inner around.isConfig))
    (Q := fun s parent _ around required properties t =>
      parent < s.flags.length → s.Closed → s.Fills t parent
        (properties.map fun e => ⟨around.isConfig, e.1, e.2, required.contains e.1⟩))
    ?_ ?_ ?_ ?_ s parent parentName around schema hlt hs
  · intro s parent parentName around schema t hobject ih hlt hs
    rw [Schema.inner, if_pos hobject]
    exact ih hlt hs
  · intro s parent parentName around schema hobject _ hs
    rw [Schema.inner, if_neg hobject]
    exact Fills.nil hs parent
  · intro s parent parentName around required _ hs
    exact Fills.nil hs parent
  · intro s parent parentName around required property schema rest inner t name place
      ihinside ihrest hlt hs
    have hlength := length_addPlace s name hidden place
    -- The flag of the property is filled in first. It stays before all flags of the properties that
    -- follow.
    have hinside := ihinside (by omega) (hs.addPlace name hidden fun a ha => by cases ha; exact hlt)
    have hrest := ihrest (Nat.lt_of_lt_of_le (by omega) hinside.isPrefix.length_le) hinside.closed
    exact Fills.cons hs hlt rfl hinside hrest

/-! ## All flags of an operation -/

/-- The root flags are those for the given declarations, and each flag for a place has inside of it
the flags for the properties of its schema, once each and in order. -/
structure Complete (s : FlagSet) (declarations : List Declaration) : Prop where
  roots : s.offspring none = declarations
  inside : ∀ {a : Nat} {q : Place}, s.place? a = some q →
    s.offspring (some a) = q.schema.inner q.isConfig
  closed : s.Closed

/-- A property gets its root flag, and this one all flags inside of it. -/
theorem Complete.addProperty {s : FlagSet} {declarations : List Declaration}
    (h : s.Complete declarations) (isConfig required hidden : Bool) (property : String)
    (schema : Schema) :
    (s.addProperty isConfig required hidden property schema).Complete
      (declarations ++ [⟨isConfig, property, schema, required⟩]) := by
  let name := s.nameFor isConfig (rootCandidate property)
  let place := Place.ofRoot s.flags.length ⟨isConfig, property, schema, required⟩
  have hlength := length_addPlace s name hidden place
  -- The flags inside of the new root flag fill it in.
  have hfills : (s.addPlace name hidden place).Fills
      (s.addProperty isConfig required hidden property schema) s.flags.length
      (schema.inner isConfig) :=
    (h.closed.addPlace name hidden fun a ha => by cases ha).fills_addChildren hidden
      (by omega) name place schema
  have hparent : place.parent = none := rfl
  refine ⟨?_, ?_, hfills.closed⟩
  · rw [hfills.offspring_eq (fun a ha => by cases ha), if_neg (Option.some_ne_none _).symm,
      offspring_addPlace, h.roots, if_pos hparent, List.append_nil]
    rfl
  · intro a q hq
    -- A flag is one of those that were there, the new root flag, or inside of it.
    rcases Nat.lt_or_ge a (s.addPlace name hidden place).flags.length with hlt | hge
    · rw [place?_eq_of_isPrefix hfills.isPrefix hlt, place?_addPlace] at hq
      rw [hfills.offspring_eq fun b hb => by cases hb; exact hlt, offspring_addPlace, hparent,
        if_neg (Option.some_ne_none a).symm, List.append_nil]
      split at hq
      next ha =>
        cases hq
        rw [ha, h.closed _ (Nat.le_refl _), if_pos rfl, List.nil_append]
        rfl
      next ha =>
        rw [h.inside hq, if_neg fun heq => ha (Option.some.inj heq), List.append_nil]
    · exact hfills.offspring_added hge hq

/-- All properties of a schema get theirs. -/
theorem Complete.addProperties {s : FlagSet} {declarations : List Declaration}
    (h : s.Complete declarations) (isConfig : Bool) (hidden : List String) (schema : Schema) :
    (s.addProperties isConfig hidden schema).Complete
      (declarations ++ schema.declarations isConfig) := by
  unfold FlagSet.addProperties Schema.declarations
  generalize schema.properties = properties
  induction properties generalizing s declarations with
  | nil => simpa using h
  | cons e rest ih =>
    have hhead := h.addProperty isConfig (schema.requires e.1) (hidden.contains e.1) e.1 e.2
    simpa using ih hhead

/-- Which flags are positional does not matter here. -/
theorem Complete.withPositionals {s : FlagSet} {declarations : List Declaration}
    (h : s.Complete declarations) (command : String) (ids : List Nat) :
    (s.withPositionals command ids).Complete declarations :=
  ⟨h.roots, h.inside, h.closed⟩

theorem NoPlaces.complete {s : FlagSet} (h : s.NoPlaces) : s.Complete [] where
  roots := by
    refine List.eq_nil_iff_forall_not_mem.mpr fun d hd => ?_
    obtain ⟨id, p, hp, -⟩ := mem_offspring_iff.mp hd
    rw [h.place?_eq] at hp
    cases hp
  inside := by
    intro a q hq
    rw [h.place?_eq] at hq
    cases hq
  closed := by
    intro id _
    refine List.eq_nil_iff_forall_not_mem.mpr fun d hd => ?_
    obtain ⟨id, p, hp, -⟩ := mem_offspring_iff.mp hd
    rw [h.place?_eq] at hp
    cases hp

/-- The flags of an operation are complete: one for each property at each depth. -/
theorem complete_ofOperation {op : Descriptor} {reserved : List String}
    {extras : List (String × External)} {s : FlagSet}
    (h : ofOperation op reserved extras = .ok s) : s.Complete (declarationsOf op) := by
  obtain ⟨ids, -, rfl⟩ := ofOperation_eq_ok_iff.mp h
  have hparameters : (ofParameters op reserved extras).Complete
      (op.parameters.declarations false) :=
    (noPlaces_ofReserved reserved extras).complete.addProperties false op.hidden op.parameters
  exact (hparameters.withPositionals op.name ids).addProperties true [] op.configs

end FlagSet

end ApiCommand
