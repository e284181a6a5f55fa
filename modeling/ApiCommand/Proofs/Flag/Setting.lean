import ApiCommand.Proofs.Flag.PropertyPath
import ApiCommand.Proofs.Json.Graft
import Mathlib.Logic.Relation

/-!
# Setting flags

A flag for a place inside of a value owns no value: setting it writes into the value of its root.
The flags that see this are the flag itself, its ancestors and its descendants, since a flag is
around another one exactly if its path leads to it (`surrounds_iff`). Each ancestor then has the
object from before with one member updated, and all flags that are apart keep their values
(`wrote_store`).
-/

namespace ApiCommand

namespace FlagSet

/-! ## Ancestors -/

/-- The flag `a` stands for the object around the place of the flag `id`. -/
def IsParent (s : FlagSet) (a id : Nat) : Prop := ∃ p, s.place? id = some p ∧ p.parent = some a

/-- The flag `a` is the flag `id` or one of its ancestors. -/
def Surrounds (s : FlagSet) : Nat → Nat → Prop := Relation.ReflTransGen s.IsParent

/-- No two flags stand for the same place. -/
def Distinct (s : FlagSet) : Prop :=
  ∀ {id other : Nat} {p q : Place}, s.place? id = some p → s.place? other = some q →
    p.root = q.root → p.path = q.path → id = other

/-- Whether two flags stand for the same place is a matter of shape. -/
theorem Distinct.congr {s t : FlagSet} (hs : s.Distinct) (h : s.blank = t.blank) : t.Distinct := by
  intro id other p q hp hq
  rw [← place?_congr h] at hp hq
  exact hs hp hq

/-- Flags for the same place have the same property path. -/
theorem distinct_of_complete {op : Descriptor} {s : FlagSet} (hnested : s.Nested)
    (hop : op.WellNested) (hcomplete : s.Complete (declarationsOf op)) : s.Distinct := by
  intro id other p q hp hq hroot hpath
  obtain ⟨π, hπ, -⟩ := exists_describes hnested hop hcomplete hp
  refine eq_of_propertyPath? hnested hop hcomplete hπ ?_
  rw [← hπ, propertyPath?, propertyPath?, hp, hq, Option.bind_some, Option.bind_some, hroot, hpath]

section Ancestors

variable {s : FlagSet} (hnested : s.Nested)

include hnested

/-- The path of a flag around another one leads to that one. -/
theorem prefix_of_surrounds {a c : Nat} {p : Place} (hp : s.place? c = some p)
    (h : s.Surrounds a c) : ∃ q, s.place? a = some q ∧ q.root = p.root ∧ q.path <+: p.path := by
  induction h using Relation.ReflTransGen.head_induction_on with
  | refl => exact ⟨p, hp, rfl, List.prefix_refl _⟩
  | head hparent _ ih =>
    obtain ⟨q, hq, hroot, hpath⟩ := ih
    obtain ⟨_, hq', hqa⟩ := hparent
    cases hq.symm.trans hq'
    obtain ⟨r, hr, hqroot, hqpath⟩ := hnested.path_of_parent hq hqa
    refine ⟨r, hr, hqroot.symm.trans hroot, ?_⟩
    exact List.IsPrefix.trans ⟨_, hqpath.symm⟩ hpath

variable (hdistinct : s.Distinct)

include hdistinct

/-- Climbing from a flag along its path, one parent at a time, meets all flags whose paths lead to
it. -/
theorem surrounds_of_path {a c : Nat} {p q : Place} (hq : s.place? a = some q)
    (hp : s.place? c = some p) (hroot : q.root = p.root) {rest : List String}
    (hpath : q.path ++ rest = p.path) : s.Surrounds a c := by
  -- The induction takes the last name off the path, which leads to the parent.
  induction rest using List.reverseRecOn generalizing c p with
  | nil =>
    rw [List.append_nil] at hpath
    rw [hdistinct hq hp hroot hpath]
    exact Relation.ReflTransGen.refl
  | append_singleton rest name ih =>
    cases hparent : p.parent with
    | none =>
      rw [(hnested.root hp hparent).2] at hpath
      simp at hpath
    | some b =>
      obtain ⟨r, hr, hproot, hppath⟩ := hnested.path_of_parent hp hparent
      rw [hppath, ← List.append_assoc] at hpath
      refine (ih hr (hroot.trans hproot) (List.append_inj_left' hpath rfl)).tail ?_
      exact ⟨p, hp, hparent⟩

/-- The flags around a flag are those whose paths lead to it. -/
theorem surrounds_iff {a c : Nat} {p q : Place} (hq : s.place? a = some q)
    (hp : s.place? c = some p) : s.Surrounds a c ↔ q.root = p.root ∧ q.path <+: p.path := by
  constructor
  · intro h
    obtain ⟨_, hq', hspec⟩ := prefix_of_surrounds hnested hp h
    cases hq.symm.trans hq'
    exact hspec
  · rintro ⟨hroot, rest, hpath⟩
    exact surrounds_of_path hnested hdistinct hq hp hroot hpath

/-- Flags are compared by paths, but the outcome is the one of following parents. -/
theorem encloses_iff {a c : Nat} {f g : Flag} {p : Place} (hg : s.flag? a = some g)
    (hf : s.flag? c = some f) (hp : f.place? = some p) : g.encloses f ↔ s.Surrounds a c := by
  have hplace : s.place? c = some p := (place?_of_flag? hf).trans hp
  cases hq : g.place? with
  | none =>
    have hnone : s.place? a = none := (place?_of_flag? hg).trans hq
    refine iff_of_false (by simp [Flag.encloses, hq]) fun h => ?_
    obtain ⟨q, hq, -⟩ := prefix_of_surrounds hnested hplace h
    cases hnone.symm.trans hq
  | some q =>
    rw [surrounds_iff hnested hdistinct ((place?_of_flag? hg).trans hq) hplace]
    simp [Flag.encloses, hq, hp]

end Ancestors

/-! ## Values after writing -/

/-- The value of a root flag as it is stored. -/
def stored? (s : FlagSet) (root : Nat) : Option Json := (s.flag? root).bind Flag.value

/-- The value of a flag is the part of the stored value that its path leads to. -/
theorem value?_of_place? {s : FlagSet} {id : Nat} {p : Place} (hp : s.place? id = some p) :
    s.value? id = (s.stored? p.root).bind (Json.project p.path) := by
  obtain ⟨f, hf, hfp⟩ := Option.bind_eq_some_iff.mp hp
  rw [value?, hf, Option.bind_some, Flag.place?_eq_some_iff.mp hfp]
  rfl

section Store

variable {s : FlagSet} (f : Flag) (p : Place) (v : Json)

/-- Other root flags keep the value that is stored for them. -/
theorem stored?_store_of_ne {root : Nat} (h : p.root ≠ root) :
    (s.store f p v).stored? root = s.stored? root := by
  rw [stored?, flag?_store, stored?]
  cases s.flag? root <;> simp [h]

theorem place?_store (id : Nat) : (s.store f p v).place? id = s.place? id :=
  place?_congr (blank_store s f p v) id

/-- Writing at a place changes the values of all flags for places with the same root as a whole. -/
theorem value?_store (hrooted : s.Rooted) {c : Nat} (hp : s.place? c = some p) {id : Nat}
    {q : Place} (hq : s.place? id = some q) (hroot : q.root = p.root) :
    (s.store f p v).value? id =
      Json.project q.path (Json.graft p.path v (s.stored? p.root)) := by
  obtain ⟨r, hr, -⟩ := hrooted.place_of_mem _ (hrooted.root_mem c p hp)
  obtain ⟨g, hg, -⟩ := Option.bind_eq_some_iff.mp hr
  have hq' : (s.store f p v).place? id = some q := (place?_store f p v id).trans hq
  rw [value?_of_place? hq', stored?, flag?_store, hroot, stored?, hg]
  simp

/-- Writing at a place does not change the values of flags that do not belong to its root. -/
theorem value?_store_of_root_ne (hrooted : s.Rooted) {c : Nat} (hp : s.place? c = some p) {id : Nat}
    (hroot : ∀ q, s.place? id = some q → q.root ≠ p.root) :
    (s.store f p v).value? id = s.value? id := by
  cases hq : s.place? id with
  | some q =>
    have hq' : (s.store f p v).place? id = some q := (place?_store f p v id).trans hq
    rw [value?_of_place? hq', value?_of_place? hq, stored?_store_of_ne f p v (hroot q hq).symm]
  | none =>
    -- The root stands for a place, and so it is another flag.
    have hne : p.root ≠ id := by
      rintro rfl
      obtain ⟨r, hr, -⟩ := hrooted.place_of_mem _ (hrooted.root_mem c p hp)
      cases hq.symm.trans hr
    rw [value?, flag?_store, value?]
    cases hflag : s.flag? id with
    | none => rfl
    | some g =>
      rw [place?_of_flag? hflag] at hq
      cases hrole : g.role with
      | place q => simp [Flag.place?, hrole] at hq
      | external e => simp [hrole, hne]

end Store

/-! ## Setting a flag -/

/-- What is known of the flags after the value `v` was given to the flag `c`. -/
structure Wrote (s t : FlagSet) (c : Nat) (v : Json) : Prop where
  value?_eq : t.value? c = some v
  /-- An object around the flag, which has a flag `b` on the way down, is what it was before, or
  else an empty object, with just the member on the way updated. -/
  around : ∀ {a b : Nat} {q : Place}, s.place? b = some q → q.parent = some a → s.Surrounds b c →
    ∃ w, t.value? b = some w ∧ t.value? a =
      some (.object (Dict.insert (Value.currentMembers (s.value? a)) q.property w))
  /-- Flags that are neither around the flag nor inside of it keep their values. -/
  apart : ∀ {g : Nat}, ¬s.Surrounds g c → ¬s.Surrounds c g → t.value? g = s.value? g
  /-- The flag and its ancestors become changed, and no others. -/
  changed_iff : ∀ {g : Nat} {h : Flag}, s.flag? g = some h →
    ∃ h', t.flag? g = some h' ∧ (h'.changed ↔ h.changed ∨ s.Surrounds g c)

/-- A value that is stored is found by its flag, and nothing else changes but what is around or
inside of it. -/
theorem wrote_store {s : FlagSet} (hrooted : s.Rooted) (hnested : s.Nested)
    (hdistinct : s.Distinct) {c : Nat} {f : Flag} {p : Place} (hf : s.flag? c = some f)
    (hp : f.place? = some p) (v : Json) : s.Wrote (s.store f p v) c v := by
  have hplace : s.place? c = some p := (place?_of_flag? hf).trans hp
  have hvalue : ∀ {id : Nat} {q : Place}, s.place? id = some q → q.root = p.root →
      (s.store f p v).value? id = Json.project q.path (Json.graft p.path v (s.stored? p.root)) :=
    value?_store f p v hrooted hplace
  refine ⟨?_, ?_, ?_, ?_⟩
  · rw [hvalue hplace rfl, Json.project_graft]
  · intro a b q hq hparent hsurrounds
    obtain ⟨r, hr, hqroot, hqpath⟩ := hnested.path_of_parent hq hparent
    obtain ⟨hroot, rest, hpath⟩ := (surrounds_iff hnested hdistinct hq hplace).mp hsurrounds
    -- Seen from the parent, the value is written at the name of the member and then `rest`.
    have hpath' : p.path = r.path ++ q.property :: rest := by
      rw [← hpath, hqpath, List.append_assoc, List.singleton_append]
    have hinner : (s.stored? p.root).bind (Json.project q.path) =
        ((s.stored? p.root).bind (Json.project r.path)).bind fun w => w.member? q.property := by
      rw [hqpath, Option.bind_assoc]
      exact congrArg _ (funext (Json.project_append_singleton r.path q.property))
    refine ⟨Json.graft rest v ((s.stored? p.root).bind (Json.project q.path)), ?_, ?_⟩
    · rw [hvalue hq hroot, ← hpath, Json.project_graft_append]
    · rw [hvalue hr (hqroot.symm.trans hroot), hpath', Json.project_graft_append, Json.graft_cons,
        value?_of_place? hr, ← hqroot, hroot, hinner]
  · intro g haround hinside
    by_cases hroot : ∃ q, s.place? g = some q ∧ q.root = p.root
    · obtain ⟨q, hq, hroot⟩ := hroot
      rw [hvalue hq hroot, value?_of_place? hq, hroot]
      refine Json.project_graft_of_apart (fun h => hinside ?_) (fun h => haround ?_) v _
      · exact (surrounds_iff hnested hdistinct hplace hq).mpr ⟨hroot.symm, h⟩
      · exact (surrounds_iff hnested hdistinct hq hplace).mpr ⟨hroot, h⟩
    · exact value?_store_of_root_ne f p v hrooted hplace fun q hq heq => hroot ⟨q, hq, heq⟩
  · intro g h hg
    refine ⟨_, by rw [flag?_store, hg, Option.map_some], ?_⟩
    rw [← encloses_iff hnested hdistinct hg hf hp, Bool.or_eq_true]

/-- A text other than the help word is read by the schema of the flag's place. -/
theorem set_eq_of_place? (host : Host) {s : FlagSet} {c : Nat} {f : Flag} {p : Place}
    {raw : String} (hraw : raw ≠ helpWord) (hf : s.flag? c = some f) (hp : f.place? = some p) :
    s.set host c raw =
      match p.schema.decode host (s.value? c) raw with
      | .ok v => .ok (s.store f p v)
      | .error fault => .error (.invalid f.name fault.message) := by
  have hrole := Flag.place?_eq_some_iff.mp hp
  unfold set
  rw [if_neg hraw]
  cases hdecode : p.schema.decode host (s.value? c) raw <;> simp only [hf, hrole, hdecode]

/-- In every state that is reached, a text other than the help word can be given to a flag for a
place exactly if the schema of the place reads it. The value that is read is then the value of the
flag, its ancestors have it in their objects, and flags apart from it are as before. Otherwise
nothing changes, and the issue names the flag. -/
theorem set_of_reachable {op : Descriptor} (hop : op.WellNested) {reserved : List String}
    {extras : List (String × External)} {start s : FlagSet}
    (hstart : ofOperation op reserved extras = .ok start) (hs : Reachable start s) (host : Host)
    {c : Nat} {f : Flag} {p : Place} (hf : s.flag? c = some f) (hp : f.place? = some p)
    {raw : String} (hraw : raw ≠ helpWord) :
    ((∃ t, s.set host c raw = .ok t) ↔ ∃ v, p.schema.decode host (s.value? c) raw = .ok v) ∧
    (∀ v, p.schema.decode host (s.value? c) raw = .ok v →
      ∃ t, s.set host c raw = .ok t ∧ s.Wrote t c v) ∧
    ∀ fault, p.schema.decode host (s.value? c) raw = .error fault →
      s.set host c raw = .error (.invalid f.name fault.message) ∧
      s.trySet host c raw = (s, [.invalid f.name fault.message]) := by
  -- Which places there are does not change from the start on.
  have hblank : start.blank = s.blank := (blank_of_reachable hs).symm
  have hgrown := grown_ofOperation hstart
  have hnested := nested_of_grown (noPlaces_ofReserved reserved extras) hgrown
  have hdistinct : start.Distinct :=
    distinct_of_complete hnested hop (complete_ofOperation hstart)
  have hrooted := (declares_ofOperation hstart).rooted
  have hset := set_eq_of_place? host hraw hf hp
  cases hdecode : p.schema.decode host (s.value? c) raw with
  | ok v =>
    rw [hdecode] at hset
    refine ⟨⟨fun _ => ⟨v, rfl⟩, fun _ => ⟨_, hset⟩⟩, fun w hw => ?_,
      fun fault hfault => by cases hfault⟩
    cases hw
    exact ⟨_, hset, wrote_store (hrooted.congr hblank) (hnested.congr hblank)
      (hdistinct.congr hblank) hf hp v⟩
  | error fault =>
    rw [hdecode] at hset
    refine ⟨⟨?_, ?_⟩, fun w hw => (by cases hw), fun other hother => ?_⟩
    · rintro ⟨t, ht⟩
      rw [hset] at ht
      cases ht
    · rintro ⟨v, hv⟩
      cases hv
    · cases hother
      exact ⟨hset, by rw [trySet, hset]⟩

/-- Once a label is given to the disk, the value of the disk is an object with just the label. -/
theorem set_of_reachable_mount :
    ∃ start t v, ofOperation mount [] [] = .ok start ∧ "data" ≠ helpWord ∧
      start.set Host.bare 1 "data" = .ok t ∧ t.value? 1 = some v ∧
      t.value? 0 = some (.object [("label", v)]) := by
  have hraw : "data" ≠ helpWord := by decide
  have hrun : (ofOperation mount [] []).toOption.any (fun s =>
      (s.value? 0).isNone && (s.set Host.bare 1 "data").isOk &&
        (s.flag? 1).any fun f => f.place?.any fun p =>
          p.property == "label" && p.parent == some 0) = true := by decide +kernel
  cases hstart : ofOperation mount [] [] with
  | error fault =>
    rw [hstart] at hrun
    cases hrun
  | ok start =>
    simp only [hstart, Except.toOption, Option.any_some, Bool.and_eq_true,
      Option.isNone_iff_eq_none, Option.any_eq_true, beq_iff_eq] at hrun
    obtain ⟨⟨hempty, hset⟩, f, hf, p, hp, hproperty, hparent⟩ := hrun
    obtain ⟨hread, hok, -⟩ :=
      set_of_reachable wellNested_mount hstart .start Host.bare hf hp hraw
    cases hresult : start.set Host.bare 1 "data" with
    | error issue =>
      rw [hresult] at hset
      cases hset
    | ok t =>
      obtain ⟨v, hdecode⟩ := hread.mp ⟨t, hresult⟩
      obtain ⟨u, hu, hwrote⟩ := hok v hdecode
      cases hresult.symm.trans hu
      have hplace : start.place? 1 = some p := (place?_of_flag? hf).trans hp
      obtain ⟨w, hw, haround⟩ := hwrote.around hplace hparent Relation.ReflTransGen.refl
      cases hw.symm.trans hwrote.value?_eq
      rw [hempty, hproperty] at haround
      exact ⟨start, t, v, rfl, hraw, hresult, hwrote.value?_eq, haround⟩

end FlagSet

end ApiCommand
