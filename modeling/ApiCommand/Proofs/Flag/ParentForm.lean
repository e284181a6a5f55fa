import ApiCommand.Proofs.Flag.Setting
import ApiCommand.Proofs.Value.Decode

/-!
# Two ways to set a member

A member of an object can be set by its own flag, or by the flag of the object with a text
`member=value`. Usage texts call the two the same, and either both or none can be read. But what is
there already counts only for the flag of the member, so the two lead to the same values exactly if
the text means the same with and without what is there (`parentForm_of_reachable`).
-/

namespace ApiCommand

namespace FlagSet

/-- The schema of a flag inside of another one is that of a property of the other one's schema. -/
theorem step?_of_parent {op : Descriptor} {s : FlagSet} (hnested : s.Nested) (hop : op.WellNested)
    (hcomplete : s.Complete (declarationsOf op)) {c a : Nat} {p q : Place}
    (hp : s.place? c = some p) (hparent : p.parent = some a) (hq : s.place? a = some q) :
    q.schema.step? p.property = some p.schema := by
  obtain ⟨-, r, hr, -, hkind⟩ := hnested.inside hp hparent
  cases hq.symm.trans hr
  obtain ⟨-, -, -, hwell⟩ := exists_describes hnested hop hcomplete hq
  have hd : p.declaration ∈ s.offspring (some a) := mem_offspring_iff.mpr ⟨c, p, hp, hparent, rfl⟩
  rw [hcomplete.inside hq, ← hkind] at hd
  exact ((mem_inner_iff hwell.sorted (d := p.declaration)).mp hd).1

/-! ## Writing with the same outcome -/

section Store

variable {s : FlagSet} {f g : Flag} {p q : Place} {v w : Json}

/-- Two ways of writing into one root that leave the same in it lead to the same values. -/
theorem value?_store_congr (hrooted : s.Rooted) {c : Nat} (hp : s.place? c = some p) {a : Nat}
    (hq : s.place? a = some q) (hroot : p.root = q.root)
    (hgraft : Json.graft p.path v (s.stored? p.root) = Json.graft q.path w (s.stored? q.root))
    (id : Nat) : (s.store f p v).value? id = (s.store g q w).value? id := by
  by_cases h : ∃ r, s.place? id = some r ∧ r.root = p.root
  · obtain ⟨r, hr, hrp⟩ := h
    rw [value?_store f p v hrooted hp hr hrp, value?_store g q w hrooted hq hr (hrp.trans hroot),
      hgraft]
  · -- Neither way touches a flag that does not belong to the root.
    have hne : ∀ r, s.place? id = some r → r.root ≠ p.root := fun r hr heq => h ⟨r, hr, heq⟩
    rw [value?_store_of_root_ne f p v hrooted hp hne,
      value?_store_of_root_ne g q w hrooted hq fun r hr => hroot ▸ hne r hr]

/-- Writing at the place of a member is writing the object with the member updated at the place of
the object. -/
theorem value?_store_parent (hrooted : s.Rooted) (hnested : s.Nested) {c a : Nat}
    (hp : s.place? c = some p) (hparent : p.parent = some a) (hq : s.place? a = some q) (id : Nat) :
    (s.store f p v).value? id =
      (s.store g q (.object
        (Dict.insert (Value.currentMembers (s.value? a)) p.property v))).value? id := by
  obtain ⟨r, hr, hroot, hpath⟩ := hnested.path_of_parent hp hparent
  cases hq.symm.trans hr
  refine value?_store_congr hrooted hp hq hroot ?_ id
  rw [hpath, Json.graft_append, Json.graft_cons, value?_of_place? hq, hroot]
  rfl

end Store

/-! ## The two forms -/

/-- A text with a key is not the word that asks for help. -/
theorem pair_ne_helpWord (key raw : String) : key ++ "=" ++ raw ≠ helpWord := by
  intro heq
  have hmem : '=' ∈ helpWord.toList := by
    rw [← heq, Value.toList_pair]
    exact List.mem_append_right _ List.mem_cons_self
  exact absurd hmem (by decide)

/-- Given `member=value`, the schema of an object reads the value by the schema of the member, as if
the member had none. -/
theorem decode_member {s t : Schema} (hobject : s.primaryType? = some "object") {key : String}
    (hkey : Value.PlainKey key) (hne : key ≠ "") (hstep : s.step? key = some t) (host : Host)
    (current : Option Json) (raw : String) :
    s.decode host current (key ++ "=" ++ raw) =
      (t.decode host none raw).map fun item =>
        .object (Dict.insert (Value.currentMembers current) key item) := by
  rw [s.decode_pair host current hobject hkey raw hne]
  unfold Schema.step? at hstep
  split at hstep
  next => rw [Schema.decodeProperty_eq, show Dict.get? s.properties key = some t from hstep]
  next => cases hstep

section Forms

variable {s : FlagSet} (host : Host) {c a : Nat} {p q : Place} (hp : s.place? c = some p)
  (hq : s.place? a = some q) (hobject : q.schema.primaryType? = some "object")
  (hkey : Value.PlainKey p.property) {raw : String} (hraw : raw ≠ helpWord)

include hp hq hobject hkey hraw

/-- Both forms can be read, or none, unless the name of the member is empty. -/
theorem exists_set_parent_iff (hstep : q.schema.step? p.property = some p.schema) :
    (∃ u, s.set host a (p.property ++ "=" ++ raw) = .ok u) ↔
      p.property ≠ "" ∧ ∃ t, s.set host c raw = .ok t := by
  obtain ⟨f, hf, hfp⟩ := Option.bind_eq_some_iff.mp hp
  obtain ⟨g, hg, hgq⟩ := Option.bind_eq_some_iff.mp hq
  have hchild := set_eq_of_place? host hraw hf hfp
  have hparent := set_eq_of_place? host (pair_ne_helpWord p.property raw) hg hgq
  by_cases hempty : p.property = ""
  · rw [q.schema.decode_pair_of_empty host _ hobject hkey raw hempty] at hparent
    refine iff_of_false ?_ fun h => h.1 hempty
    rintro ⟨u, hu⟩
    cases hparent.symm.trans hu
  · rw [decode_member hobject hkey hempty hstep] at hparent
    have hread : (∃ v, p.schema.decode host (s.value? c) raw = .ok v) ↔ _ :=
      p.schema.exists_decode_iff host (s.value? c) none
    rw [hchild, hparent]
    cases hcurrent : p.schema.decode host (s.value? c) raw <;>
      cases hnone : p.schema.decode host none raw <;>
      simp [hcurrent, hnone, hempty, Except.map] at hread ⊢

/-- Where both forms can be read, they lead to the same values exactly if the value reads the same
with what is there already and with nothing. -/
theorem value?_set_parent_iff (hrooted : s.Rooted) (hnested : s.Nested)
    (hparent : p.parent = some a) (hstep : q.schema.step? p.property = some p.schema)
    {t u : FlagSet} (ht : s.set host c raw = .ok t)
    (hu : s.set host a (p.property ++ "=" ++ raw) = .ok u) :
    (∀ id, u.value? id = t.value? id) ↔
      p.schema.decode host none raw = p.schema.decode host (s.value? c) raw := by
  obtain ⟨f, hf, hfp⟩ := Option.bind_eq_some_iff.mp hp
  obtain ⟨g, hg, hgq⟩ := Option.bind_eq_some_iff.mp hq
  have hne : p.property ≠ "" :=
    ((exists_set_parent_iff host hp hq hobject hkey hraw hstep).mp ⟨u, hu⟩).1
  rw [set_eq_of_place? host hraw hf hfp] at ht
  rw [set_eq_of_place? host (pair_ne_helpWord p.property raw) hg hgq,
    decode_member hobject hkey hne hstep] at hu
  cases hcurrent : p.schema.decode host (s.value? c) raw with
  | error fault => simp [hcurrent] at ht
  | ok v =>
    cases hnone : p.schema.decode host none raw with
    | error fault => simp [hnone, Except.map] at hu
    | ok w =>
      simp only [hcurrent, Except.ok.injEq] at ht
      simp only [hnone, Except.map, Except.ok.injEq] at hu
      -- The form for the object writes, at the place of the member, what is read as if nothing was
      -- there.
      have hvalue : ∀ id, u.value? id = (s.store f p w).value? id := fun id => by
        rw [← hu]
        exact (value?_store_parent hrooted hnested hp hparent hq id).symm
      subst ht
      constructor
      · intro h
        have hread : ∀ v, (s.store f p v).value? c = some v := fun v => by
          rw [value?_store f p v hrooted hp hp rfl, Json.project_graft]
        have hc := (hvalue c).symm.trans (h c)
        rw [hread, hread, Option.some.injEq] at hc
        rw [hc]
      · intro h id
        cases h
        exact hvalue id

end Forms

/-- In every state that is reached, the flag of an object can be set with `member=value` exactly if
the flag of the member can be set with the value, unless the name of the member is empty. The two
then lead to the same values of all flags exactly if the value reads the same with nothing there and
with what the member has already. This is so for a member that has no value yet, and always for one
that is no array or object. -/
theorem parentForm_of_reachable {op : Descriptor} (hop : op.WellNested) {reserved : List String}
    {extras : List (String × External)} {start s : FlagSet}
    (hstart : ofOperation op reserved extras = .ok start) (hs : Reachable start s) (host : Host)
    {c a : Nat} {p q : Place} (hp : s.place? c = some p) (hparent : p.parent = some a)
    (hq : s.place? a = some q) (hobject : q.schema.primaryType? = some "object")
    (hkey : Value.PlainKey p.property) {raw : String} (hraw : raw ≠ helpWord) :
    ((∃ u, s.set host a (p.property ++ "=" ++ raw) = .ok u) ↔
      p.property ≠ "" ∧ ∃ t, s.set host c raw = .ok t) ∧
    ∀ t u, s.set host c raw = .ok t → s.set host a (p.property ++ "=" ++ raw) = .ok u →
      ((∀ id, u.value? id = t.value? id) ↔
        p.schema.decode host none raw = p.schema.decode host (s.value? c) raw) ∧
      ((p.schema.primaryType? = some "array" ∨ p.schema.primaryType? = some "object" →
        s.value? c = none) → ∀ id, u.value? id = t.value? id) := by
  -- The shape of the set is that of the one for the operation.
  have hblank : start.blank = s.blank := (blank_of_reachable hs).symm
  have hnested := nested_ofOperation hstart
  have hrooted : s.Rooted := (declares_ofOperation hstart).rooted.congr hblank
  have hstep : q.schema.step? p.property = some p.schema := by
    rw [← place?_congr hblank] at hp hq
    exact step?_of_parent hnested hop (complete_ofOperation hstart) hp hparent hq
  refine ⟨exists_set_parent_iff host hp hq hobject hkey hraw hstep, fun t u ht hu => ?_⟩
  have hiff := value?_set_parent_iff host hp hq hobject hkey hraw hrooted (hnested.congr hblank)
    hparent hstep ht hu
  refine ⟨hiff, fun hempty => hiff.mpr ?_⟩
  -- Only arrays and objects are read on top of what is there.
  by_cases htype :
      p.schema.primaryType? = some "array" ∨ p.schema.primaryType? = some "object"
  · rw [hempty htype]
  · rw [not_or] at htype
    exact p.schema.decode_congr host none htype.1 htype.2 (s.value? c)

/-- The label of a disk that has none is set in both ways, to the same effect. -/
theorem parentForm_of_reachable_mount :
    ∃ start t u, ofOperation mount [] [] = .ok start ∧ "data" ≠ helpWord ∧
      start.set Host.bare 1 "data" = .ok t ∧
      start.set Host.bare 0 ("label" ++ "=" ++ "data") = .ok u ∧
      ∀ id, u.value? id = t.value? id := by
  have hraw : "data" ≠ helpWord := by decide
  have hkey : Value.PlainKey "label" := ⟨by decide, by decide, by decide, by decide⟩
  have hrun : (ofOperation mount [] []).toOption.any (fun s =>
      (s.value? 1).isNone && (s.set Host.bare 1 "data").toOption.isSome &&
        (s.place? 1).any (fun p => p.property == "label" && p.parent == some 0) &&
        (s.place? 0).any fun q => q.schema.primaryType? == some "object") = true := by
    decide +kernel
  obtain ⟨start, hstart, hrun⟩ := (Option.any_eq_true _ _).mp hrun
  simp only [Bool.and_eq_true, Option.isNone_iff_eq_none, Option.isSome_iff_exists,
    Option.any_eq_true, beq_iff_eq] at hrun
  obtain ⟨⟨⟨hnone, t, ht⟩, p, hp, hproperty, hparent⟩, q, hq, hobject⟩ := hrun
  have hstart := eq_ok_of_toOption hstart
  have ht := eq_ok_of_toOption ht
  rw [← hproperty] at hkey ⊢
  obtain ⟨hread, hsame⟩ := parentForm_of_reachable wellNested_mount hstart .start Host.bare hp
    hparent hq hobject hkey hraw
  obtain ⟨u, hu⟩ := hread.mpr ⟨by rw [hproperty]; decide, t, ht⟩
  exact ⟨start, t, u, hstart, hraw, ht, hu, (hsame t u ht hu).2 fun _ => hnone⟩

/-- An operation with an object that has a list of texts. -/
def tagged : Descriptor :=
  { name := "tagged"
    parameters := .object [("disk", .object [("tags", .array .string)] [])] []
    configs := .emptyObject }

/-- If the disk has a tag already, then its flag for tags adds another one, but the disk's own flag
replaces it. -/
theorem parentForm_ne_tagged :
    ∃ start s t u p q, ofOperation tagged [] [] = .ok start ∧ Reachable start s ∧
      s.place? 1 = some p ∧ p.property = "tags" ∧ p.parent = some 0 ∧ s.place? 0 = some q ∧
      q.schema.primaryType? = some "object" ∧ Value.PlainKey "tags" ∧ "y" ≠ helpWord ∧
      s.set Host.bare 1 "y" = .ok t ∧ s.set Host.bare 0 ("tags" ++ "=" ++ "y") = .ok u ∧
      (Value.currentItems ((t.value? 0).bind (Json.project ["tags"]))).length = 2 ∧
      (Value.currentItems ((u.value? 0).bind (Json.project ["tags"]))).length = 1 ∧
      t.value? 0 ≠ u.value? 0 := by
  have hkey : Value.PlainKey "tags" := ⟨by decide, by decide, by decide, by decide⟩
  have hrun : (ofOperation tagged [] []).toOption.any (fun start =>
      let s := (start.trySet Host.bare 1 "x").1
      (s.place? 1).any (fun p => p.property == "tags" && p.parent == some 0) &&
        (s.place? 0).any (fun q => q.schema.primaryType? == some "object") &&
        (s.set Host.bare 1 "y").toOption.any fun t =>
          (s.set Host.bare 0 ("tags" ++ "=" ++ "y")).toOption.any fun u =>
            (Value.currentItems ((t.value? 0).bind (Json.project ["tags"]))).length == 2 &&
              (Value.currentItems ((u.value? 0).bind (Json.project ["tags"]))).length == 1) =
      true := by decide +kernel
  obtain ⟨start, hstart, hrun⟩ := (Option.any_eq_true _ _).mp hrun
  simp only [Bool.and_eq_true, Option.any_eq_true, beq_iff_eq] at hrun
  obtain ⟨⟨⟨p, hp, hproperty, hparent⟩, q, hq, hobject⟩, t, ht, u, hu, htwo, hone⟩ := hrun
  refine ⟨start, _, t, u, p, q, eq_ok_of_toOption hstart, .set Host.bare 1 "x" .start, hp,
    hproperty, hparent, hq, hobject, hkey, by decide, eq_ok_of_toOption ht,
    eq_ok_of_toOption hu, htwo, hone, fun heq => ?_⟩
  rw [heq, hone] at htwo
  cases htwo

end FlagSet

end ApiCommand
