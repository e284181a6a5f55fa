import ApiCommand.Proofs.Flag.Offspring
import ApiCommand.Proofs.Flag.Resolution
import Mathlib.Data.List.Induction

/-!
# Flags and property paths

A property path leads from a property of the parameters or of the configs of an operation through
properties of objects to a schema. The flags for places are exactly the property paths: since every
flag has the properties of its own schema as the flags inside of it (`Complete`), every path is that
of a single flag, which carries what the schemas say of the path (`propertyPaths_of_ofOperation`).
-/

namespace ApiCommand

/-! ## Property paths -/

/-- The properties of the schema, and of all schemas inside of it, are dictionaries. -/
inductive Schema.WellNested : Schema → Prop
  | intro {s : Schema} (sorted : Dict.Sorted s.properties)
      (inside : ∀ e ∈ s.properties, e.2.WellNested) : s.WellNested

theorem Schema.WellNested.sorted {s : Schema} (h : s.WellNested) : Dict.Sorted s.properties := by
  cases h
  assumption

/-- The schema of a property is nested as well as the one around it. -/
theorem Schema.WellNested.of_mem {s : Schema} (h : s.WellNested) {e : String × Schema}
    (he : e ∈ s.properties) : e.2.WellNested := by
  cases h with
  | intro _ inside => exact inside e he

/-- The properties of both schemas of an operation, and of all schemas inside of them, are
dictionaries. -/
structure Descriptor.WellNested (op : Descriptor) : Prop where
  parameters : op.parameters.WellNested
  configs : op.configs.WellNested

/-- Both schemas of an operation are nested well. -/
theorem Descriptor.WellNested.inputSchema {op : Descriptor} (h : op.WellNested) (isConfig : Bool) :
    (op.inputSchema isConfig).WellNested := by
  cases isConfig
  · exact h.parameters
  · exact h.configs

theorem Descriptor.WellNested.wellFormed {op : Descriptor} (h : op.WellNested) : op.WellFormed :=
  ⟨h.parameters.sorted, h.configs.sorted⟩

/-- The schema of a property of an object. -/
def Schema.step? (s : Schema) (name : String) : Option Schema :=
  if s.isObject then s.property? name else none

/-- The schema that is reached through properties of objects. -/
def Schema.inside? (s : Schema) (path : List String) : Option Schema :=
  match path with
  | [] => some s
  | name :: path => (s.step? name).bind fun t => t.inside? path

/-- The last step of a way is one step from where the others lead. -/
theorem Schema.inside?_append_singleton (s : Schema) (path : List String) (name : String) :
    s.inside? (path ++ [name]) = (s.inside? path).bind fun t => t.step? name := by
  induction path generalizing s with
  | nil => simp [inside?]
  | cons first path ih =>
    rw [List.cons_append, inside?, inside?, Option.bind_assoc]
    exact congrArg _ (funext ih)

/-- A way from a property of an operation through properties of objects. -/
structure PropertyPath where
  /-- The first property is one of the configs. -/
  isConfig : Bool
  property : String
  /-- The properties after the first one. -/
  inside : List String
  deriving DecidableEq

namespace PropertyPath

/-- The path with one more property at its end. -/
def extend (π : PropertyPath) (name : String) : PropertyPath :=
  { π with inside := π.inside ++ [name] }

/-- The path without its last property, unless it has only one. -/
def outer (π : PropertyPath) : PropertyPath := { π with inside := π.inside.dropLast }

/-- The last property of the path. -/
def last (π : PropertyPath) : String := π.inside.getLast?.getD π.property

/-- Taking back the last step leads to where the path was before it. -/
@[simp]
theorem outer_extend (π : PropertyPath) (name : String) : (π.extend name).outer = π := by
  simp [outer, extend]

@[simp]
theorem last_extend (π : PropertyPath) (name : String) : (π.extend name).last = name := by
  simp [last, extend]

end PropertyPath

namespace Descriptor

/-- The schema at the end of a property path; none if there is no such path. -/
def schemaAt? (op : Descriptor) (π : PropertyPath) : Option Schema :=
  ((op.inputSchema π.isConfig).property? π.property).bind fun s => s.inside? π.inside

/-- The schema that has the last property of a path. -/
def schemaAround? (op : Descriptor) (π : PropertyPath) : Option Schema :=
  if π.inside = [] then some (op.inputSchema π.isConfig) else op.schemaAt? π.outer

/-- A longer path leads one step further. -/
theorem schemaAt?_extend (op : Descriptor) (π : PropertyPath) (name : String) :
    op.schemaAt? (π.extend name) = (op.schemaAt? π).bind fun s => s.step? name := by
  simp only [schemaAt?, PropertyPath.extend, Schema.inside?_append_singleton, Option.bind_assoc]

/-- Around the end of a longer path is the schema that the shorter one leads to. -/
theorem schemaAround?_extend (op : Descriptor) (π : PropertyPath) (name : String) :
    op.schemaAround? (π.extend name) = op.schemaAt? π := by
  rw [schemaAround?, PropertyPath.outer_extend, if_neg]
  simp [PropertyPath.extend]

end Descriptor

/-! ## Declared properties -/

/-- The properties of an object are declared by its schema. -/
theorem mem_inner_iff {s : Schema} (h : Dict.Sorted s.properties) {d : Declaration} :
    d ∈ s.inner d.isConfig ↔
      s.step? d.property = some d.schema ∧ d.required = s.requires d.property := by
  obtain ⟨isConfig, property, schema, required⟩ := d
  unfold Schema.inner Schema.step?
  split
  · rw [Schema.property?, Dict.get?_eq_some_iff h]
    simp [Schema.declarations, eq_comm]
  · simp

/-- The declarations of an operation are the properties of its schemas. -/
theorem mem_declarationsOf_iff_property? {op : Descriptor} (h : op.WellFormed) {d : Declaration} :
    d ∈ FlagSet.declarationsOf op ↔
      (op.inputSchema d.isConfig).property? d.property = some d.schema ∧
        d.required = (op.inputSchema d.isConfig).requires d.property := by
  have hsorted : Dict.Sorted (op.inputSchema d.isConfig).properties := by
    cases d.isConfig
    · exact h.parameters
    · exact h.configs
  rw [FlagSet.mem_declarationsOf_iff, Schema.property?, Dict.get?_eq_some_iff hsorted]
  obtain ⟨isConfig, property, schema, required⟩ := d
  simp

namespace FlagSet

/-! ## One flag for each path -/

/-- The property path that a flag stands for. -/
def propertyPath? (s : FlagSet) (id : Nat) : Option PropertyPath :=
  (s.place? id).bind fun p => (s.place? p.root).map fun r => ⟨r.isConfig, r.property, p.path⟩

/-- The place of the flag with number `id` is what the schemas of an operation say of the path
`π`. -/
structure Describes (op : Descriptor) (s : FlagSet) (π : PropertyPath) (id : Nat) (p : Place) :
    Prop where
  property_eq : p.property = π.last
  isConfig_eq : p.isConfig = π.isConfig
  schema_eq : op.schemaAt? π = some p.schema
  required_eq : ∃ around, op.schemaAround? π = some around ∧ p.required = around.requires π.last
  parent_eq_none : π.inside = [] → p.parent = none
  /-- The parent is the flag of the path around the last property, and it comes earlier. -/
  parent_eq_some : π.inside ≠ [] →
    ∃ a < id, p.parent = some a ∧ s.propertyPath? a = some π.outer

section Paths

variable {op : Descriptor} {s : FlagSet} (hnested : s.Nested)

include hnested

/-- The path of a root flag is its property. -/
theorem propertyPath?_of_root {id : Nat} {p : Place} (hp : s.place? id = some p)
    (hparent : p.parent = none) : s.propertyPath? id = some ⟨p.isConfig, p.property, []⟩ := by
  obtain ⟨hroot, hpath⟩ := hnested.root hp hparent
  rw [propertyPath?, hp, Option.bind_some, hroot, hp, Option.map_some, hpath]

/-- The path of any other flag goes on from that of its parent. -/
theorem propertyPath?_of_inside {id a : Nat} {p : Place} (hp : s.place? id = some p)
    (hparent : p.parent = some a) :
    s.propertyPath? id = (s.propertyPath? a).map fun π => π.extend p.property := by
  obtain ⟨q, hq, hroot, hpath⟩ := hnested.path_of_parent hp hparent
  rw [propertyPath?, propertyPath?, hp, hq, Option.bind_some, Option.bind_some, Option.map_map,
    hroot, hpath]
  rfl

variable (hop : op.WellNested) (hcomplete : s.Complete (declarationsOf op))

include hop hcomplete

/-- Each flag stands for a path and is what the schemas say of the path. -/
theorem exists_describes {id : Nat} {p : Place} (hp : s.place? id = some p) :
    ∃ π, s.propertyPath? id = some π ∧ s.Describes op π id p ∧ p.schema.WellNested := by
  -- Parents come earlier, so the path of the parent is known when that of a flag is asked for.
  induction id using Nat.strongRecOn generalizing p with
  | _ id ih =>
    have hd : p.declaration ∈ s.offspring p.parent := mem_offspring_iff.mpr ⟨id, p, hp, rfl, rfl⟩
    cases hparent : p.parent with
    | none =>
      rw [hparent, hcomplete.roots] at hd
      obtain ⟨hproperty, hrequired⟩ := (mem_declarationsOf_iff_property? hop.wellFormed).mp hd
      have hschema : op.schemaAt? ⟨p.isConfig, p.property, []⟩ = some p.schema := by
        rw [Descriptor.schemaAt?, show (op.inputSchema p.isConfig).property? p.property = _ from
          hproperty]
        rfl
      refine ⟨_, propertyPath?_of_root hnested hp hparent,
        ⟨rfl, rfl, hschema, ⟨_, if_pos rfl, hrequired⟩, fun _ => hparent,
          fun hne => absurd rfl hne⟩, ?_⟩
      exact (hop.inputSchema p.isConfig).of_mem (e := (p.property, p.schema))
        (Dict.mem_of_get?_eq_some hproperty)
    | some a =>
      obtain ⟨hlt, q, hq, -, hkind⟩ := hnested.inside hp hparent
      obtain ⟨π, hπ, hdescribes, hwell⟩ := ih a hlt hq
      rw [hparent, hcomplete.inside hq, ← hkind] at hd
      obtain ⟨hstep, hrequired⟩ := (mem_inner_iff hwell.sorted (d := p.declaration)).mp hd
      have hpath : s.propertyPath? id = some (π.extend p.property) := by
        rw [propertyPath?_of_inside hnested hp hparent, hπ, Option.map_some]
      refine ⟨_, hpath, ⟨?_, ?_, ?_, ⟨q.schema, ?_, ?_⟩, ?_, ?_⟩, ?_⟩
      · exact (π.last_extend p.property).symm
      · rw [hkind, hdescribes.isConfig_eq]
        rfl
      · rw [op.schemaAt?_extend, hdescribes.schema_eq, Option.bind_some]
        exact hstep
      · rw [op.schemaAround?_extend, hdescribes.schema_eq]
      · rw [PropertyPath.last_extend]
        exact hrequired
      · intro hnil
        simp [PropertyPath.extend] at hnil
      · intro _
        exact ⟨a, hlt, hparent, by rw [PropertyPath.outer_extend, hπ]⟩
      · unfold Schema.step? at hstep
        split at hstep
        · exact hwell.of_mem (e := (p.property, p.schema)) (Dict.mem_of_get?_eq_some hstep)
        · cases hstep

/-- Two flags with one parent are for different properties. -/
theorem eq_of_sibling {id other : Nat} {p q : Place} (hp : s.place? id = some p)
    (hq : s.place? other = some q) (hparent : p.parent = q.parent)
    (hkind : p.isConfig = q.isConfig) (hproperty : p.property = q.property) : id = other := by
  have hpairwise : (s.offspring p.parent).Pairwise fun a b =>
      a.isConfig = b.isConfig → a.property < b.property := by
    cases hparent : p.parent with
    | none =>
      rw [hcomplete.roots]
      exact pairwise_declarationsOf hop.wellFormed
    | some a =>
      obtain ⟨-, r, hr, -⟩ := hnested.inside hp hparent
      obtain ⟨-, -, -, hwell⟩ := exists_describes hnested hop hcomplete hr
      rw [hcomplete.inside hr, Schema.inner]
      split
      · exact pairwise_declarations hwell.sorted _
      · exact List.Pairwise.nil
  -- Of two flags, the one that comes later is for the greater property.
  have hlt : ∀ {i j : Nat} {p q : Place}, s.place? i = some p → s.place? j = some q →
      p.parent = q.parent → p.isConfig = q.isConfig → i < j →
      (s.offspring p.parent).Pairwise (fun a b =>
        a.isConfig = b.isConfig → a.property < b.property) → p.property < q.property := by
    intro i j p q hp hq hparent hkind hij hpairwise
    obtain ⟨f, hf, hp⟩ := Option.bind_eq_some_iff.mp hp
    obtain ⟨g, hg, hq⟩ := Option.bind_eq_some_iff.mp hq
    obtain ⟨hi, rfl⟩ := List.getElem?_eq_some_iff.mp hf
    obtain ⟨hj, rfl⟩ := List.getElem?_eq_some_iff.mp hg
    rw [offspring, List.pairwise_filterMap, List.pairwise_iff_getElem] at hpairwise
    exact hpairwise i j hi hj hij p.declaration (by simp [hp]) q.declaration
      (by simp [hq, hparent]) hkind
  rcases Nat.lt_trichotomy id other with hlt' | heq | hgt
  · exact absurd hproperty (Std.ne_of_lt (hlt hp hq hparent hkind hlt' hpairwise))
  · exact heq
  · refine absurd hproperty.symm (Std.ne_of_lt ?_)
    exact hlt hq hp hparent.symm hkind.symm hgt (hparent ▸ hpairwise)

/-- Two flags for one path are the same. -/
theorem eq_of_propertyPath? {id other : Nat} {π : PropertyPath} (hid : s.propertyPath? id = some π)
    (hother : s.propertyPath? other = some π) : id = other := by
  obtain ⟨isConfig, property, path⟩ := π
  induction path using List.reverseRecOn generalizing id other with
  | nil =>
    -- Two root flags stand for one property.
    obtain ⟨p, hp, -⟩ := Option.bind_eq_some_iff.mp hid
    obtain ⟨q, hq, -⟩ := Option.bind_eq_some_iff.mp hother
    obtain ⟨_, hπ, hdp, -⟩ := exists_describes hnested hop hcomplete hp
    cases hid.symm.trans hπ
    obtain ⟨_, hπ, hdq, -⟩ := exists_describes hnested hop hcomplete hq
    cases hother.symm.trans hπ
    exact eq_of_sibling hnested hop hcomplete hp hq
      ((hdp.parent_eq_none rfl).trans (hdq.parent_eq_none rfl).symm)
      (hdp.isConfig_eq.trans hdq.isConfig_eq.symm) (hdp.property_eq.trans hdq.property_eq.symm)
  | append_singleton path name ih =>
    obtain ⟨p, hp, -⟩ := Option.bind_eq_some_iff.mp hid
    obtain ⟨q, hq, -⟩ := Option.bind_eq_some_iff.mp hother
    obtain ⟨_, hπ, hdp, -⟩ := exists_describes hnested hop hcomplete hp
    cases hid.symm.trans hπ
    obtain ⟨_, hπ, hdq, -⟩ := exists_describes hnested hop hcomplete hq
    cases hother.symm.trans hπ
    -- Two paths that are the same have the same parent, and in it one property.
    obtain ⟨a, -, hpa, ha⟩ := hdp.parent_eq_some (by simp)
    obtain ⟨b, -, hqb, hb⟩ := hdq.parent_eq_some (by simp)
    have hab : a = b := ih (by simpa [PropertyPath.outer] using ha)
      (by simpa [PropertyPath.outer] using hb)
    exact eq_of_sibling hnested hop hcomplete hp hq (by rw [hpa, hqb, hab])
      (hdp.isConfig_eq.trans hdq.isConfig_eq.symm) (hdp.property_eq.trans hdq.property_eq.symm)

/-- There is a flag for each path. -/
theorem exists_propertyPath? {π : PropertyPath} {schema : Schema}
    (h : op.schemaAt? π = some schema) : ∃ id, s.propertyPath? id = some π := by
  obtain ⟨isConfig, property, path⟩ := π
  induction path using List.reverseRecOn generalizing schema with
  | nil =>
    -- A path of one property leads to a root flag for its declaration.
    obtain ⟨t, ht, hschema⟩ := Option.bind_eq_some_iff.mp h
    let d : Declaration := ⟨isConfig, property, t, (op.inputSchema isConfig).requires property⟩
    have hd : d ∈ s.offspring none := by
      rw [hcomplete.roots]
      exact (mem_declarationsOf_iff_property? hop.wellFormed).mpr ⟨ht, rfl⟩
    obtain ⟨id, p, hp, hparent, hpd⟩ := mem_offspring_iff.mp hd
    refine ⟨id, ?_⟩
    rw [propertyPath?_of_root hnested hp hparent]
    exact congrArg (fun d : Declaration => some (PropertyPath.mk d.isConfig d.property [])) hpd
  | append_singleton path name ih =>
    have hextend :
        -- A longer path goes on from the flag for the shorter one, which has all flags inside of
        -- it.
        op.schemaAt? (PropertyPath.extend ⟨isConfig, property, path⟩ name) = some schema := h
    rw [op.schemaAt?_extend] at hextend
    obtain ⟨t, ht, hstep⟩ := Option.bind_eq_some_iff.mp hextend
    obtain ⟨a, ha⟩ := ih ht
    obtain ⟨q, hq, -⟩ := Option.bind_eq_some_iff.mp ha
    obtain ⟨_, hπ, hdescribes, hwell⟩ := exists_describes hnested hop hcomplete hq
    cases ha.symm.trans hπ
    have hqt : q.schema = t := Option.some.inj (hdescribes.schema_eq.symm.trans ht)
    let d : Declaration := ⟨q.isConfig, name, schema, q.schema.requires name⟩
    have hd : d ∈ s.offspring (some a) := by
      rw [hcomplete.inside hq]
      exact (mem_inner_iff hwell.sorted).mpr ⟨by rw [hqt]; exact hstep, rfl⟩
    obtain ⟨id, p, hp, hparent, hpd⟩ := mem_offspring_iff.mp hd
    refine ⟨id, ?_⟩
    rw [propertyPath?_of_inside hnested hp hparent, ha,
      show p.property = name from congrArg Declaration.property hpd]
    rfl

end Paths

/-- A flag is hidden if its path starts with a parameter that is to be hidden. -/
theorem hidden_of_grown {op : Descriptor} {start s : FlagSet} (hstart : start.NoPlaces)
    (h : Grown op start s) {id : Nat} {f : Flag} {p : Place} (hf : s.flag? id = some f)
    (hp : f.place? = some p) :
    ∃ r, s.place? p.root = some r ∧ f.hidden = op.hides r.isConfig r.property := by
  -- The root of a place that was there before is still there.
  have hkeep : ∀ {s : FlagSet} {name : String} {hidden : Bool} {p : Place} {b : Bool} {n : Nat},
      (∃ r, s.place? n = some r ∧ b = op.hides r.isConfig r.property) →
      ∃ r, (s.addPlace name hidden p).place? n = some r ∧ b = op.hides r.isConfig r.property := by
    rintro s name hidden p b n ⟨r, hr, hb⟩
    exact ⟨r, place?_addPlace_of_eq_some hr name hidden p, hb⟩
  induction h generalizing id f p with
  | start =>
    have hnone := hstart.place?_eq id
    rw [place?_of_flag? hf, hp] at hnone
    cases hnone
  | positionals ids _ ih => exact ih hf hp
  | @root s d _ _ ih =>
    rw [flag?_addPlace] at hf
    split at hf
    next =>
      cases hf
      cases hp
      exact ⟨Place.ofRoot s.flags.length d, by rw [place?_addPlace]; exact if_pos rfl, rfl⟩
    next => exact hkeep (ih hf hp)
  | @inside s a g q d _ hg hq _ ih =>
    rw [flag?_addPlace] at hf
    split at hf
    next =>
      cases hf
      cases hp
      have hparent := ih hg hq
      exact hkeep hparent
    next => exact hkeep (ih hf hp)

/-! ## Positional flags -/

/-- If positional flags are found, then they are those of the parameters with the names. -/
theorem map_parameterFlag?_of_positionalFlags {s : FlagSet} {operation : String} {index : Nat}
    {names : List String} {ids : List Nat}
    (h : s.positionalFlags operation index names = .ok ids) :
    names.map s.parameterFlag? = ids.map some := by
  induction names generalizing index ids with
  | nil =>
    cases h
    rfl
  | cons name rest ih =>
    rw [positionalFlags] at h
    cases hname : s.parameterFlag? name with
    | none => simp [hname] at h
    | some id =>
      cases hrest : s.positionalFlags operation (index + 1) rest with
      | error fault => simp [hname, hrest, Except.map] at h
      | ok others =>
        simp only [hname, hrest, Except.map, Except.ok.injEq] at h
        rw [List.map_cons, hname, ih hrest, ← h, List.map_cons]

/-- A positional flag is only missing if a name is not that of a parameter. -/
theorem unknown_of_positionalFlags {s : FlagSet} {operation : String} {index : Nat}
    {names : List String} {fault : Fault}
    (h : s.positionalFlags operation index names = .error fault) :
    ∃ i, ∃ name ∈ names, s.parameterFlag? name = none ∧
      fault = .unknownPositional i operation name := by
  induction names generalizing index with
  | nil => cases h
  | cons name rest ih =>
    rw [positionalFlags] at h
    cases hname : s.parameterFlag? name with
    | none =>
      simp only [hname, Except.error.injEq] at h
      exact ⟨index, name, List.mem_cons_self, hname, h.symm⟩
    | some id =>
      cases hrest : s.positionalFlags operation (index + 1) rest with
      | error other =>
        simp only [hname, hrest, Except.map, Except.error.injEq] at h
        obtain ⟨i, other, hother, hspec⟩ := ih (h ▸ hrest)
        exact ⟨i, other, List.mem_cons_of_mem _ hother, hspec⟩
      | ok others => simp [hname, hrest, Except.map] at h

/-- A parameter that is found by name is a root flag for it. -/
theorem parameterFlag?_eq_some {s : FlagSet} {name : String} {id : Nat}
    (h : s.parameterFlag? name = some id) :
    id ∈ s.roots ∧ ∃ p, s.place? id = some p ∧ p.isConfig = false ∧ p.property = name := by
  refine ⟨List.mem_of_find?_eq_some h, ?_⟩
  have hp := List.find?_some h
  obtain ⟨p, hp, hspec⟩ := (Option.any_eq_true _ _).mp hp
  exact ⟨p, hp, by simpa using hspec⟩

/-- A parameter has a flag exactly if its schema declares it. -/
theorem parameterFlag?_eq_none_iff {s : FlagSet} {schema : Schema}
    (h : s.Declares (schema.declarations false)) (name : String) :
    s.parameterFlag? name = none ↔ schema.property? name = none := by
  -- The flag for a parameter is looked up among the root flags, which are those of the
  -- declarations.
  have hflag : (∃ id, s.parameterFlag? name = some id) ↔ ∃ e ∈ schema.properties, e.1 = name := by
    constructor
    · rintro ⟨id, hid⟩
      obtain ⟨hroot, p, hp, -, rfl⟩ := parameterFlag?_eq_some hid
      have hd : p.declaration ∈ schema.declarations false := by
        rw [← h.places]
        exact List.mem_map_of_mem (List.mem_filterMap.mpr ⟨id, hroot, hp⟩)
      obtain ⟨e, he, hd⟩ := List.mem_map.mp hd
      exact ⟨e, he, congrArg Declaration.property hd⟩
    · rintro ⟨e, he, rfl⟩
      have hd : ⟨false, e.1, e.2, schema.requires e.1⟩ ∈ s.rootPlaces.map Place.declaration := by
        rw [h.places]
        exact List.mem_map_of_mem he
      obtain ⟨p, hp, hd⟩ := List.mem_map.mp hd
      obtain ⟨id, hroot, hp⟩ := List.mem_filterMap.mp hp
      refine Option.isSome_iff_exists.mp (List.find?_isSome.mpr ⟨id, hroot, ?_⟩)
      obtain ⟨f, hf, hfp⟩ := Option.bind_eq_some_iff.mp hp
      have hkind : p.isConfig = false := congrArg Declaration.isConfig hd
      have hproperty : p.property = e.1 := congrArg Declaration.property hd
      simp [hf, hfp, hkind, hproperty]
  have hproperty : (∃ e ∈ schema.properties, e.1 = name) ↔ ∃ t, schema.property? name = some t := by
    constructor
    · rintro ⟨e, he, rfl⟩
      exact Option.isSome_iff_exists.mp (Dict.contains_of_mem he)
    · rintro ⟨t, ht⟩
      exact ⟨(name, t), Dict.mem_of_get?_eq_some ht, rfl⟩
  have hiff := not_congr (hflag.trans hproperty)
  simpa [Option.eq_none_iff_forall_ne_some] using hiff

/-- Adding properties does not make flags positional. -/
theorem positionals_addProperties (s : FlagSet) (isConfig : Bool) (hidden : List String)
    (schema : Schema) :
    (s.addProperties isConfig hidden schema).positionals = s.positionals := by
  have hadd : ∀ (t : FlagSet) (name : String) (hidden : Bool) (p : Place),
      (t.addPlace name hidden p).positionals = t.positionals := by
    intro t name hidden p
    unfold addPlace
    split <;> rfl
  refine List.foldlRecOn (motive := fun t : FlagSet => t.positionals = s.positionals) _ _ rfl ?_
  intro t ht e _
  refine addChildren_preserves (P := fun t => t.positionals = s.positionals) _ _ _ _ _ ?_ ?_
  · intro u name p _ _ hu
    rw [hadd, hu]
  · rw [hadd, ht]

/-! ## The flags of an operation -/

section Operation

variable {op : Descriptor} {reserved : List String} {extras : List (String × External)}

/-- If flags cannot be made for an operation, then because of a positional argument that is not a
parameter. -/
theorem unknown_of_ofOperation {fault : Fault} (h : ofOperation op reserved extras = .error fault) :
    ∃ i, ∃ name ∈ op.positionals, op.parameters.property? name = none ∧
      fault = .unknownPositional i op.name name := by
  obtain ⟨i, name, hname, hunknown, hfault⟩ :=
    unknown_of_positionalFlags (ofOperation_eq_error_iff.mp h)
  refine ⟨i, name, hname, ?_, hfault⟩
  exact (parameterFlag?_eq_none_iff (declares_ofParameters op reserved extras) name).mp hunknown

/-- If flags can be made for an operation, then all positional arguments are parameters, and the
positional flags are theirs. -/
theorem positionals_of_ofOperation {s : FlagSet} (h : ofOperation op reserved extras = .ok s) :
    (∀ name ∈ op.positionals, op.parameters.property? name ≠ none) ∧
      s.positionals.map s.propertyPath? =
        op.positionals.map fun name => some ⟨false, name, []⟩ := by
  have hdeclares := declares_ofParameters op reserved extras
  obtain ⟨ids, hids, hs⟩ := ofOperation_eq_ok_iff.mp h
  have hmap := map_parameterFlag?_of_positionalFlags hids
  constructor
  · intro name hname hproperty
    have hmem : (ofParameters op reserved extras).parameterFlag? name ∈ ids.map some :=
      hmap ▸ List.mem_map_of_mem hname
    rw [(parameterFlag?_eq_none_iff hdeclares name).mpr hproperty] at hmem
    simp at hmem
  · -- The flags for the configs are added behind the others.
    have hgrown : Grown op ((ofParameters op reserved extras).withPositionals op.name ids) s := by
      rw [← hs]
      exact Grown.start.addProperties true
    have hprefix : (ofParameters op reserved extras).flags <+: s.flags := hgrown.isPrefix
    have hpositionals : s.positionals = ids := by
      rw [← hs, positionals_addProperties]
      rfl
    have hpath : ∀ name ∈ op.positionals,
        ((ofParameters op reserved extras).parameterFlag? name).bind s.propertyPath? =
          some ⟨false, name, []⟩ := by
      intro name hname
      obtain ⟨id, -, hid⟩ := List.mem_map.mp (hmap ▸ List.mem_map_of_mem hname)
      obtain ⟨hroot, p, hp, hkind, hproperty⟩ := parameterFlag?_eq_some hid.symm
      obtain ⟨q, hq, hqroot, hqpath⟩ := hdeclares.rooted.place_of_mem id hroot
      cases hp.symm.trans hq
      have hps : s.place? id = some p := by
        rw [place?_eq_of_isPrefix hprefix (lt_length_of_place? hp)]
        exact hp
      rw [← hid, Option.bind_some, propertyPath?, hps, Option.bind_some, hqroot, hps,
        Option.map_some, hkind, hproperty, hqpath]
    calc
      s.positionals.map s.propertyPath? = (ids.map some).map fun o => o.bind s.propertyPath? := by
        rw [hpositionals, List.map_map]
        rfl
      _ = op.positionals.map fun name =>
          ((ofParameters op reserved extras).parameterFlag? name).bind s.propertyPath? := by
        rw [← hmap, List.map_map]
        rfl
      _ = op.positionals.map fun name => some ⟨false, name, []⟩ := List.map_congr_left hpath

end Operation

/-- Flags can be made for an operation exactly if its positional arguments are parameters; anything
else is a fault of the program. The positional flags are then those of these parameters, in order,
and the flags for places and the property paths of the operation correspond one to one: each flag is
what the schemas say of its path, is hidden if the path starts with a parameter that is to be
hidden, and has the flag of the path around it as its parent, which comes earlier. -/
theorem propertyPaths_of_ofOperation {op : Descriptor} (hop : op.WellNested)
    (reserved : List String) (extras : List (String × External)) :
    ((∃ fault, ofOperation op reserved extras = .error fault) ↔
      ∃ name ∈ op.positionals, op.parameters.property? name = none) ∧
    (∀ fault, ofOperation op reserved extras = .error fault → fault.area = .programming) ∧
    ∀ s, ofOperation op reserved extras = .ok s →
      s.positionals.map s.propertyPath? =
        (op.positionals.map fun name => some ⟨false, name, []⟩) ∧
      (∀ π schema, op.schemaAt? π = some schema →
        ∃! id, id ∈ s.roots ++ s.children ∧ s.propertyPath? id = some π) ∧
      ∀ id ∈ s.roots ++ s.children, ∃ f p π, s.flag? id = some f ∧ f.place? = some p ∧
        s.propertyPath? id = some π ∧ s.Describes op π id p ∧
        f.hidden = op.hides π.isConfig π.property ∧ (id ∈ s.roots ↔ π.inside = []) := by
  refine ⟨⟨?_, ?_⟩, ?_, ?_⟩
  · -- The flags cannot be made exactly if a positional name is unknown.
    rintro ⟨fault, hfault⟩
    obtain ⟨-, name, hname, hunknown, -⟩ := unknown_of_ofOperation hfault
    exact ⟨name, hname, hunknown⟩
  · rintro ⟨name, hname, hunknown⟩
    cases hbuilt : ofOperation op reserved extras with
    | error fault => exact ⟨fault, rfl⟩
    | ok s => exact absurd hunknown ((positionals_of_ofOperation hbuilt).1 name hname)
  · -- It takes a mistake in the description of the operation.
    intro fault hfault
    obtain ⟨-, -, -, -, rfl⟩ := unknown_of_ofOperation hfault
    rfl
  · intro s hs
    have hgrown := grown_ofOperation hs
    have hnested := nested_of_grown (noPlaces_ofReserved reserved extras) hgrown
    have hlisted := listed_of_grown (noPlaces_ofReserved reserved extras) hgrown
    have hcomplete := complete_ofOperation hs
    refine ⟨(positionals_of_ofOperation hs).2, ?_, ?_⟩
    · -- Each path of the schemas has a flag, and it has no other one.
      intro π schema hschema
      obtain ⟨id, hid⟩ := exists_propertyPath? hnested hop hcomplete hschema
      obtain ⟨p, hp, -⟩ := Option.bind_eq_some_iff.mp hid
      refine ⟨id, ⟨hlisted.mem_iff.mpr ⟨p, hp⟩, hid⟩, fun other hother => ?_⟩
      exact eq_of_propertyPath? hnested hop hcomplete hother.2 hid
    · -- Each flag has a path, and its place is what the schemas say of it.
      intro id hid
      obtain ⟨p, hp⟩ := hlisted.mem_iff.mp hid
      obtain ⟨π, hπ, hdescribes, -⟩ := exists_describes hnested hop hcomplete hp
      obtain ⟨f, hf, hfp⟩ := Option.bind_eq_some_iff.mp hp
      obtain ⟨r, hr, hhidden⟩ := hidden_of_grown (noPlaces_ofReserved reserved extras) hgrown hf hfp
      refine ⟨f, p, π, hf, hfp, hπ, hdescribes, ?_, ?_⟩
      · -- Flags inside of a root flag are hidden with it.
        rw [propertyPath?, hp, Option.bind_some, hr] at hπ
        cases hπ
        exact hhidden
      · rw [hlisted.mem_roots_iff hp]
        refine ⟨fun hparent => ?_, hdescribes.parent_eq_none⟩
        rw [propertyPath?_of_root hnested hp hparent] at hπ
        cases hπ
        rfl

/-- An operation with a hidden parameter that may be an object, and a positional one. -/
def mount : Descriptor :=
  { name := "mount"
    parameters := .object
      [("disk", { types := ["null", "object"], properties := [("label", .string)] }),
        ("path", .string)] ["path"]
    configs := .emptyObject, positionals := ["path"], hidden := ["disk"] }

theorem wellNested_mount : mount.WellNested where
  parameters := by
    have hleaf : Schema.string.WellNested := .intro Dict.sorted_nil fun e he => by cases he
    have hsorted : "disk" < "path" := by decide +kernel
    refine .intro (List.pairwise_pair.mpr hsorted) fun e he => ?_
    rcases List.mem_cons.mp he with rfl | he
    · refine .intro (List.pairwise_singleton _ _) fun e he => ?_
      rw [List.mem_singleton.mp he]
      exact hleaf
    · rw [List.mem_singleton.mp he]
      exact hleaf
  configs := .intro Dict.sorted_nil fun e he => by cases he

/-- The label of the disk has exactly one flag. -/
theorem propertyPaths_of_ofOperation_mount :
    ∃ s, ofOperation mount ["help"] [] = .ok s ∧
      ∃! id, id ∈ s.roots ++ s.children ∧ s.propertyPath? id = some ⟨false, "disk", ["label"]⟩ := by
  obtain ⟨herror, -, hflags⟩ := propertyPaths_of_ofOperation wellNested_mount ["help"] []
  cases hbuilt : ofOperation mount ["help"] [] with
  | error fault =>
    obtain ⟨name, hname, hunknown⟩ := herror.mp ⟨fault, hbuilt⟩
    rw [List.mem_singleton.mp hname] at hunknown
    cases hunknown
  | ok s =>
    have hschema : mount.schemaAt? ⟨false, "disk", ["label"]⟩ = some .string := rfl
    exact ⟨s, rfl, (hflags s hbuilt).2.1 _ _ hschema⟩

end FlagSet

end ApiCommand
