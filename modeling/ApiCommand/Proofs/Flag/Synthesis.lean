import ApiCommand.Command.Call
import ApiCommand.Proofs.Dict
import ApiCommand.Proofs.Flag.Shape
import Mathlib.Data.List.Basic

/-!
# The flags of an operation

The root flags that are made for an operation are the properties of its two schemas, in order, each
with its schema and with the mark of being required: `declares_ofOperation` for
`FlagSet.ofOperation` and `declares_flagsFor` for the flags of a call.
-/

namespace ApiCommand

/-- What a root flag takes over from the schema that has its property. -/
structure Declaration where
  isConfig : Bool
  property : String
  schema : Schema
  required : Bool

/-- What a place takes over from the schema around it. -/
def Place.declaration (p : Place) : Declaration := ⟨p.isConfig, p.property, p.schema, p.required⟩

namespace Place

/-- The place of a property of an operation, for the flag with number `id`. -/
def ofRoot (id : Nat) (d : Declaration) : Place :=
  { property := d.property, schema := d.schema, required := d.required, isConfig := d.isConfig
    root := id, path := [], parent := none }

/-- The place of a property inside of the place `q`, for which the flag `a` stands. -/
def inside (q : Place) (a : Nat) (d : Declaration) : Place :=
  { property := d.property, schema := d.schema, required := d.required, isConfig := d.isConfig
    root := q.root, path := q.path ++ [d.property], parent := some a }

end Place

/-- The declarations of all properties of a schema. -/
def Schema.declarations (s : Schema) (isConfig : Bool) : List Declaration :=
  s.properties.map fun e => ⟨isConfig, e.1, e.2, s.requires e.1⟩

/-- The flag, not hidden any more. -/
def Flag.shown (f : Flag) : Flag := { f with hidden := false }

/-- The schema of the inputs of one kind. -/
def Descriptor.inputSchema (op : Descriptor) (isConfig : Bool) : Schema :=
  if isConfig then op.configs else op.parameters

namespace FlagSet

/-! ## Adding flags -/

/-- A new flag gets the next number, and the others keep theirs. -/
theorem flag?_push (s : FlagSet) (f : Flag) (id : Nat) :
    (s.push f).flag? id = if id = s.flags.length then some f else s.flag? id := by
  simp only [push, flag?]
  split
  next h => rw [h, List.getElem?_concat_length]
  next h =>
    rcases Nat.lt_or_gt_of_ne h with hlt | hgt
    · exact List.getElem?_append_left hlt
    · rw [List.getElem?_eq_none (by simp; omega), List.getElem?_eq_none (by omega)]

theorem flag?_addPlace (s : FlagSet) (name : String) (hidden : Bool) (p : Place) (id : Nat) :
    (s.addPlace name hidden p).flag? id =
      if id = s.flags.length then some { name, role := .place p, hidden } else s.flag? id := by
  rw [← flag?_push]
  unfold addPlace
  split <;> rfl

theorem flag?_addExternal (s : FlagSet) (name : String) (e : External) (id : Nat) :
    (s.addExternal name e).flag? id =
      if id = s.flags.length then some { name, role := .external e } else s.flag? id := by
  rw [← flag?_push]
  unfold addExternal
  split <;> rfl

theorem place?_addPlace (s : FlagSet) (name : String) (hidden : Bool) (p : Place) (id : Nat) :
    (s.addPlace name hidden p).place? id =
      if id = s.flags.length then some p else s.place? id := by
  rw [place?, flag?_addPlace]
  split <;> rfl

/-- A place without a parent makes a root flag. -/
theorem roots_addPlace (s : FlagSet) (name : String) (hidden : Bool) (p : Place) :
    (s.addPlace name hidden p).roots =
      if p.parent.isNone then s.roots ++ [s.flags.length] else s.roots := by
  unfold addPlace
  split <;> rfl

/-- A flag that stands for a place still stands for it after another flag is added. -/
theorem place?_addPlace_of_eq_some {s : FlagSet} {id : Nat} {q : Place}
    (h : s.place? id = some q) (name : String) (hidden : Bool) (p : Place) :
    (s.addPlace name hidden p).place? id = some q := by
  have hne : id ≠ s.flags.length := by
    rintro rfl
    simp [place?, flag?] at h
  rw [place?_addPlace, if_neg hne, h]

/-- Nothing was given to any flag. -/
def Fresh (s : FlagSet) : Prop := ∀ id f, s.flag? id = some f → f.blank = f

/-- Without values, no flag has to be marked. -/
theorem Fresh.marked {s : FlagSet} (h : s.Fresh) : s.Marked := by
  intro id f hf hvalue
  rw [← h id f hf] at hvalue
  cases hvalue

/-- A flag that was given nothing was not asked for help. -/
theorem Fresh.helpRequested {s : FlagSet} (h : s.Fresh) {id : Nat} {f : Flag}
    (hf : s.flag? id = some f) : f.helpRequested = false := by
  rw [← h id f hf]
  rfl

/-- A new place does not come with a value. -/
theorem Fresh.addPlace {s : FlagSet} (h : s.Fresh) (name : String) (hidden : Bool) (p : Place) :
    (s.addPlace name hidden p).Fresh := by
  intro id f hf
  rw [flag?_addPlace] at hf
  split at hf
  · cases hf
    rfl
  · exact h id f hf

/-- An external flag does not come with a value either. -/
theorem Fresh.addExternal {s : FlagSet} (h : s.Fresh) (name : String) (e : External) :
    (s.addExternal name e).Fresh := by
  intro id f hf
  rw [flag?_addExternal] at hf
  split at hf
  · cases hf
    rfl
  · exact h id f hf

/-- A place inside of a value belongs to the root flag that has the value. -/
theorem Rooted.addChild {s : FlagSet} (h : s.Rooted) (name : String) (hidden : Bool) {p : Place}
    (hparent : p.parent ≠ none) (hroot : p.root ∈ s.roots) :
    (s.addPlace name hidden p).Rooted := by
  have hroots : (s.addPlace name hidden p).roots = s.roots := by
    rw [roots_addPlace, if_neg (by simpa using hparent)]
  constructor
  · intro id hid
    rw [hroots] at hid
    obtain ⟨q, hq, hspec⟩ := h.place_of_mem id hid
    exact ⟨q, place?_addPlace_of_eq_some hq name hidden p, hspec⟩
  · intro id q hq
    rw [hroots]
    rw [place?_addPlace] at hq
    split at hq
    · cases hq
      exact hroot
    · exact h.root_mem id q hq

/-- A new root flag stands for the whole of its value. -/
theorem Rooted.addRoot {s : FlagSet} (h : s.Rooted) (name : String) (hidden : Bool) {p : Place}
    (hparent : p.parent = none) (hroot : p.root = s.flags.length) (hpath : p.path = []) :
    (s.addPlace name hidden p).Rooted := by
  have hroots : (s.addPlace name hidden p).roots = s.roots ++ [s.flags.length] := by
    rw [roots_addPlace, if_pos (by simp [hparent])]
  constructor
  · intro id hid
    rw [hroots] at hid
    rcases List.mem_append.mp hid with hid | hid
    · obtain ⟨q, hq, hspec⟩ := h.place_of_mem id hid
      exact ⟨q, place?_addPlace_of_eq_some hq name hidden p, hspec⟩
    · have hid := List.mem_singleton.mp hid
      exact ⟨p, by rw [place?_addPlace, if_pos hid], by rw [hroot, hid], hpath⟩
  · intro id q hq
    rw [hroots]
    rw [place?_addPlace] at hq
    split at hq
    · cases hq
      simp [hroot]
    · exact List.mem_append_left _ (h.root_mem id q hq)

/-! ## The root flags and their places -/

/-- The places of the root flags, in order. -/
def rootPlaces (s : FlagSet) : List Place := s.roots.filterMap s.place?

/-- The set is as it was made, and its root flags are those for the given declarations. -/
structure Declares (s : FlagSet) (declarations : List Declaration) : Prop where
  rooted : s.Rooted
  fresh : s.Fresh
  places : s.rootPlaces.map Place.declaration = declarations

/-- Adding a flag leaves the places of the root flags as they are. -/
theorem filterMap_place?_addPlace {s : FlagSet} (h : s.Rooted) (name : String) (hidden : Bool)
    (p : Place) : s.roots.filterMap (s.addPlace name hidden p).place? = s.rootPlaces := by
  refine List.filterMap_congr fun id hid => ?_
  obtain ⟨q, hq, -⟩ := h.place_of_mem id hid
  rw [place?_addPlace_of_eq_some hq, hq]

/-- Flags inside of other ones declare nothing of their own. -/
theorem Declares.addChild {s : FlagSet} {declarations : List Declaration}
    (h : s.Declares declarations) (name : String) (hidden : Bool) {p : Place}
    (hparent : p.parent ≠ none) (hroot : p.root ∈ s.roots) :
    (s.addPlace name hidden p).Declares declarations where
  rooted := h.rooted.addChild name hidden hparent hroot
  fresh := h.fresh.addPlace name hidden p
  places := by
    rw [rootPlaces, roots_addPlace, if_neg (by simpa using hparent),
      filterMap_place?_addPlace h.rooted, h.places]

/-- A new root flag adds its declaration behind the others. -/
theorem Declares.addRoot {s : FlagSet} {declarations : List Declaration}
    (h : s.Declares declarations) (name : String) (hidden : Bool) {p : Place}
    (hparent : p.parent = none) (hroot : p.root = s.flags.length) (hpath : p.path = []) :
    (s.addPlace name hidden p).Declares (declarations ++ [p.declaration]) where
  rooted := h.rooted.addRoot name hidden hparent hroot hpath
  fresh := h.fresh.addPlace name hidden p
  places := by
    have hlast : (s.addPlace name hidden p).place? s.flags.length = some p := by
      rw [place?_addPlace, if_pos rfl]
    rw [rootPlaces, roots_addPlace, if_pos (by simp [hparent]), List.filterMap_append,
      filterMap_place?_addPlace h.rooted, List.map_append, h.places]
    simp [hlast]

/-! ## Flags for properties and what is inside of them -/

/-- What adding the flags inside of a flag does, by induction along the recursion: `P` relates the
flags before and after for one flag, and `Q` for a list of properties below it. -/
theorem addChildren_induction (hidden : Bool)
    {P : FlagSet → Nat → String → Place → Schema → FlagSet → Prop}
    {Q : FlagSet → Nat → String → Place → List String → List (String × Schema) → FlagSet → Prop}
    (object : ∀ s parent parentName around (schema : Schema) t, schema.isObject →
      Q s parent parentName around schema.required schema.properties t →
      P s parent parentName around schema t)
    (leaf : ∀ s parent parentName around (schema : Schema), ¬schema.isObject →
      P s parent parentName around schema s)
    (nil : ∀ s parent parentName around required, Q s parent parentName around required [] s)
    (cons : ∀ (s : FlagSet) parent parentName (around : Place) (required : List String) property
      schema rest inner t,
      let name := s.nameFor around.isConfig (childCandidate parentName property)
      let place := around.inside parent
        ⟨around.isConfig, property, schema, required.contains property⟩
      P (s.addPlace name hidden place) s.flags.length name place schema inner →
      Q inner parent parentName around required rest t →
      Q s parent parentName around required ((property, schema) :: rest) t)
    (s : FlagSet) (parent : Nat) (parentName : String) (around : Place) (schema : Schema) :
    P s parent parentName around schema
      (s.addChildren hidden parent parentName around schema) := by
  -- The generated principle has a case for each branch of the two functions. Its many hypotheses
  -- are the local definitions.
  refine (addChildren.mutual_induct hidden
    (fun s parent parentName around schema =>
      P s parent parentName around schema
        (s.addChildren hidden parent parentName around schema))
    (fun s parent parentName around required properties =>
      Q s parent parentName around required properties
        (s.addEach hidden parent parentName around required properties))
    ?_ ?_ ?_ ?_).1 s parent parentName around schema
  · intro s parent parentName around _ _ _ _ _ _ _ _ _ _ _ _ _ hobject ih
    rw [addChildren, if_pos hobject]
    exact object _ _ _ _ _ _ hobject ih
  · intro s parent parentName around _ _ _ _ _ _ _ _ _ _ _ _ _ hobject
    rw [addChildren, if_neg hobject]
    exact leaf _ _ _ _ _ hobject
  · intro s parent parentName around required
    rw [addEach]
    exact nil _ _ _ _ _
  · intro s parent parentName around required property schema rest _ _ _ _ ihinside ihrest
    rw [addEach]
    exact cons _ _ _ _ _ _ _ _ _ _ ihinside ihrest

/-- What adding a flag inside of a value preserves, adding the flags for all that is inside of it
preserves. -/
theorem addChildren_preserves {P : FlagSet → Prop} {s : FlagSet} (hidden : Bool) (parent : Nat)
    (parentName : String) (around : Place) (schema : Schema)
    (hadd : ∀ (s : FlagSet) (name : String) (p : Place),
      p.parent ≠ none → p.root = around.root → P s → P (s.addPlace name hidden p))
    (hs : P s) : P (s.addChildren hidden parent parentName around schema) := by
  refine addChildren_induction hidden
    (P := fun s _ _ place _ t => place.root = around.root → P s → P t)
    (Q := fun s _ _ place _ _ t => place.root = around.root → P s → P t)
    ?_ ?_ ?_ ?_ s parent parentName around schema rfl hs
  · intro s parent parentName place schema t _ ih
    exact ih
  · intro s parent parentName place schema _ _ hs
    exact hs
  · intro s parent parentName place required _ hs
    exact hs
  · intro s parent parentName place required property schema rest inner t name new ihinside ihrest
      hroot hs
    exact ihrest hroot (ihinside hroot (hadd s name new (Option.some_ne_none _) hroot hs))

/-- A property is declared by the root flag that is made for it, and not by those inside of it. -/
theorem Declares.addProperty {s : FlagSet} {declarations : List Declaration}
    (h : s.Declares declarations) (isConfig required hidden : Bool) (property : String)
    (schema : Schema) :
    (s.addProperty isConfig required hidden property schema).Declares
      (declarations ++ [⟨isConfig, property, schema, required⟩]) := by
  have hroot := h.addRoot (s.nameFor isConfig (rootCandidate property)) hidden
    (p := { property, schema, required, isConfig, root := s.flags.length, path := [],
            parent := none }) rfl rfl rfl
  -- The flags inside belong to the root flag that was just added, so no root flag is added by them.
  refine (addChildren_preserves
    (P := fun t => t.Declares _ ∧ s.flags.length ∈ t.roots) hidden _ _ _ schema ?_
    ⟨hroot, ?_⟩).1
  · rintro t name p hparent hp ⟨ht, hmem⟩
    refine ⟨ht.addChild name hidden hparent (hp ▸ hmem), ?_⟩
    rw [roots_addPlace, if_neg (by simpa using hparent)]
    exact hmem
  · rw [roots_addPlace]
    simp

/-- The properties of a schema are declared in their order. -/
theorem Declares.addProperties {s : FlagSet} {declarations : List Declaration}
    (h : s.Declares declarations) (isConfig : Bool) (hidden : List String) (schema : Schema) :
    (s.addProperties isConfig hidden schema).Declares
      (declarations ++ schema.declarations isConfig) := by
  unfold FlagSet.addProperties Schema.declarations
  generalize schema.properties = properties
  induction properties generalizing s declarations with
  | nil => simpa using h
  | cons e rest ih =>
    have hhead := h.addProperty isConfig (schema.requires e.1) (hidden.contains e.1) e.1 e.2
    simpa using ih hhead

/-- All flags are external. -/
structure NoPlaces (s : FlagSet) : Prop where
  place?_eq : ∀ id, s.place? id = none
  roots_eq : s.roots = []
  children_eq : s.children = []

/-- An external flag stands for no place. -/
theorem NoPlaces.addExternal {s : FlagSet} (h : s.NoPlaces) (name : String) (e : External) :
    (s.addExternal name e).NoPlaces where
  place?_eq := by
    intro id
    rw [place?, flag?_addExternal]
    split
    · rfl
    · exact h.place?_eq id
  roots_eq := by
    rw [← h.roots_eq]
    unfold FlagSet.addExternal
    split <;> rfl
  children_eq := by
    rw [← h.children_eq]
    unfold FlagSet.addExternal
    split <;> rfl

/-- What adding external flags preserves holds of the set of the reserved names. -/
theorem ofReserved_induction {P : FlagSet → Prop} (reserved : List String)
    (extras : List (String × External)) (hempty : P {})
    (hadd : ∀ (s : FlagSet) (name : String) (e : External), P s → P (s.addExternal name e)) :
    P (ofReserved reserved extras) :=
  List.foldlRecOn (motive := P) _ _ hempty fun s hs e _ => hadd s e.1 e.2 hs

/-- The command's own flags stand for no places. -/
theorem noPlaces_ofReserved (reserved : List String) (extras : List (String × External)) :
    (ofReserved reserved extras).NoPlaces :=
  ofReserved_induction reserved extras ⟨fun _ => rfl, rfl, rfl⟩ fun _ name e hs =>
    hs.addExternal name e

/-- The command's own flags declare nothing. -/
theorem declares_ofReserved (reserved : List String) (extras : List (String × External)) :
    (ofReserved reserved extras).Declares [] := by
  have hnone := noPlaces_ofReserved reserved extras
  have hfresh : (ofReserved reserved extras).Fresh :=
    ofReserved_induction reserved extras (fun id f hf => by cases hf) fun _ name e hs =>
      hs.addExternal name e
  constructor
  · constructor
    · intro id hid
      rw [hnone.roots_eq] at hid
      cases hid
    · intro id p hp
      rw [hnone.place?_eq] at hp
      cases hp
  · exact hfresh
  · rw [rootPlaces, hnone.roots_eq]
    rfl

/-! ## The flags of an operation and of a call -/

/-- The declarations of the inputs of an operation. -/
def declarationsOf (op : Descriptor) : List Declaration :=
  op.parameters.declarations false ++ op.configs.declarations true

/-- A property is declared by the schema of its kind. -/
theorem mem_declarationsOf_iff {op : Descriptor} {d : Declaration} :
    d ∈ declarationsOf op ↔
      ∃ e ∈ (op.inputSchema d.isConfig).properties,
        d = ⟨d.isConfig, e.1, e.2, (op.inputSchema d.isConfig).requires e.1⟩ := by
  obtain ⟨isConfig, property, schema, required⟩ := d
  cases isConfig <;>
    simp [declarationsOf, Schema.declarations, Descriptor.inputSchema, eq_comm]

/-- The flags for the parameters of an operation. They are made before those for the configs. -/
def ofParameters (op : Descriptor) (reserved : List String) (extras : List (String × External)) :
    FlagSet :=
  (ofReserved reserved extras).addProperties false op.hidden op.parameters

/-- The parameters of an operation are declared first. -/
theorem declares_ofParameters (op : Descriptor) (reserved : List String)
    (extras : List (String × External)) :
    (ofParameters op reserved extras).Declares (op.parameters.declarations false) :=
  (declares_ofReserved reserved extras).addProperties false op.hidden op.parameters

/-- The set for a command with positional flags. -/
def withPositionals (s : FlagSet) (command : String) (ids : List Nat) : FlagSet :=
  { s with command, positionals := ids }

/-- The positional flags are no new ones. -/
theorem Declares.withPositionals {s : FlagSet} {declarations : List Declaration}
    (h : s.Declares declarations) (command : String) (ids : List Nat) :
    (s.withPositionals command ids).Declares declarations :=
  ⟨⟨h.rooted.place_of_mem, h.rooted.root_mem⟩, h.fresh, h.places⟩

/-- Once the parameters have their flags, the positional ones are looked up among them, and then the
configs get theirs. -/
theorem ofOperation_eq_ok_iff {op : Descriptor} {reserved : List String}
    {extras : List (String × External)} {s : FlagSet} :
    ofOperation op reserved extras = .ok s ↔
      ∃ ids, (ofParameters op reserved extras).positionalFlags op.name 0 op.positionals = .ok ids ∧
        ((ofParameters op reserved extras).withPositionals op.name ids).addProperties true []
          op.configs = s := by
  rw [ofOperation, ofParameters]
  unfold withPositionals
  cases positionalFlags _ op.name 0 op.positionals <;> simp [Except.map]

/-- Only the positional names can keep an operation from having flags. -/
theorem ofOperation_eq_error_iff {op : Descriptor} {reserved : List String}
    {extras : List (String × External)} {fault : Fault} :
    ofOperation op reserved extras = .error fault ↔
      (ofParameters op reserved extras).positionalFlags op.name 0 op.positionals =
        .error fault := by
  rw [ofOperation, ofParameters]
  cases positionalFlags _ op.name 0 op.positionals <;> simp [Except.map]

/-- The root flags of an operation are the properties of its schemas. -/
theorem declares_ofOperation {op : Descriptor} {reserved : List String}
    {extras : List (String × External)} {s : FlagSet}
    (h : ofOperation op reserved extras = .ok s) : s.Declares (declarationsOf op) := by
  obtain ⟨ids, -, rfl⟩ := ofOperation_eq_ok_iff.mp h
  have hparameters := declares_ofParameters op reserved extras
  exact (hparameters.withPositionals op.name ids).addProperties true [] _

section Shown

variable (s : FlagSet)

/-- Flags keep their numbers when hidden ones are shown. -/
theorem flag?_revealHidden (id : Nat) :
    s.revealHidden.flag? id = (s.flag? id).map Flag.shown :=
  List.getElem?_map

/-- What is said of a flag is the same after it is shown if it does not depend on the mark. -/
theorem map_flag?_revealHidden {α : Type} {g : Flag → α} (hg : ∀ f, g f.shown = g f) (id : Nat) :
    (s.revealHidden.flag? id).map g = (s.flag? id).map g := by
  rw [flag?_revealHidden, Option.map_map]
  exact congrArg (Option.map · (s.flag? id)) (funext hg)

/-- What does not depend on the mark of a flag can be read off the set with hidden flags shown. -/
theorem bind_flag?_revealHidden {α : Type} {g : Flag → Option α} (hg : ∀ f, g f.shown = g f)
    (id : Nat) : (s.revealHidden.flag? id).bind g = (s.flag? id).bind g := by
  rw [flag?_revealHidden, Option.bind_map]
  exact congrArg (Option.bind (s.flag? id)) (funext hg)

/-- The same goes for what holds of a flag. -/
theorem any_flag?_revealHidden {g : Flag → Bool} (hg : ∀ f, g f.shown = g f) (id : Nat) :
    (s.revealHidden.flag? id).any g = (s.flag? id).any g := by
  rw [flag?_revealHidden, Option.any_map]
  exact congrArg (Option.any · (s.flag? id)) (funext hg)

@[simp]
theorem name_revealHidden : s.revealHidden.name = s.name := funext fun id => by
  rw [name, map_flag?_revealHidden s (fun _ => rfl), name]

theorem place?_revealHidden (id : Nat) : s.revealHidden.place? id = s.place? id := by
  rw [place?, bind_flag?_revealHidden s (fun _ => rfl), place?]

theorem length_revealHidden : s.revealHidden.flags.length = s.flags.length := List.length_map _

end Shown

/-- Showing hidden flags changes nothing else. -/
theorem Declares.revealHidden {s : FlagSet} {declarations : List Declaration}
    (h : s.Declares declarations) : s.revealHidden.Declares declarations := by
  have hplace := funext s.place?_revealHidden
  constructor
  · exact ⟨fun id hid => by rw [hplace]; exact h.rooted.place_of_mem id hid,
      fun id p hp => h.rooted.root_mem id p (by rw [← hplace]; exact hp)⟩
  · intro id f hf
    rw [flag?_revealHidden] at hf
    obtain ⟨g, hg, rfl⟩ := Option.map_eq_some_iff.mp hf
    rw [← h.fresh id g hg]
    rfl
  · rw [← h.places, rootPlaces, hplace]
    rfl

/-- The flags of a call are those of its operation, and maybe the hidden ones are shown. -/
theorem flagsFor_induction {P : FlagSet → Prop} {op : Descriptor} {showHidden : Bool} {s : FlagSet}
    (h : Call.flagsFor op showHidden = .ok s)
    (made : ∀ {t}, ofOperation op Call.reservedNames Call.ownFlags = .ok t → P t)
    (revealed : ∀ {t : FlagSet}, P t → P t.revealHidden) : P s := by
  unfold Call.flagsFor at h
  cases hoperation : ofOperation op Call.reservedNames Call.ownFlags with
  | error fault =>
    rw [hoperation] at h
    cases h
  | ok t =>
    rw [hoperation] at h
    cases showHidden with
    | false => cases h; exact made hoperation
    | true => cases h; exact revealed (made hoperation)

/-- The root flags of a call are the properties of the schemas of its operation. -/
theorem declares_flagsFor {op : Descriptor} {showHidden : Bool} {s : FlagSet}
    (h : Call.flagsFor op showHidden = .ok s) : s.Declares (declarationsOf op) :=
  flagsFor_induction h declares_ofOperation Declares.revealHidden

end FlagSet

end ApiCommand
