import ApiCommand.Proofs.Flag.Resolution
import ApiCommand.Proofs.Flag.Setting

/-!
# Marks and values

What is known of a flag is its value and two marks, and these go together: a flag inside of another
one holds no value, any other flag holds one if it was changed otherwise than by a request for help,
and a change inside of a value shows in all flags around it (`Coherent`). Every step keeps this, so
resolution finds each value that was given (`coherent_of_reachable`).
-/

namespace ApiCommand

namespace Flag

theorem isChild_of_place? {f : Flag} {p : Place} (h : f.place? = some p) :
    f.isChild = p.parent.isSome := by
  rw [isChild, h, Option.any_some]

/-- Nothing encloses a flag that stands for no place. -/
theorem encloses_eq_false {f g : Flag} (h : g.place? = none) : f.encloses g = false := by
  unfold encloses
  rw [h]
  cases f.place? <;> rfl

/-- What encloses a flag encloses all that the flag encloses. -/
theorem encloses_trans {f g h : Flag} (hfg : f.encloses g) (hgh : g.encloses h) : f.encloses h := by
  unfold encloses at hfg hgh ⊢
  cases hf : f.place? with
  | none => simp [hf] at hfg
  | some p =>
    cases hg : g.place? with
    | none => simp [hf, hg] at hfg
    | some q =>
      cases hh : h.place? with
      | none => simp [hg, hh] at hgh
      | some r =>
        simp only [hf, hg, hh, Bool.and_eq_true, beq_iff_eq, List.isPrefixOf_iff_prefix]
          at hfg hgh ⊢
        exact ⟨hfg.1.trans hgh.1, hfg.2.trans hgh.2⟩

end Flag

namespace FlagSet

/-! ## The invariant -/

/-- The marks of flags and their values go together. -/
structure Coherent (s : FlagSet) : Prop where
  /-- A flag inside of another one holds no value. -/
  value_of_isChild : ∀ {id : Nat} {f : Flag}, s.flag? id = some f → f.isChild → f.value = none
  /-- Any other flag holds a value if it was changed otherwise than by a request for help. -/
  isSome_value : ∀ {id : Nat} {f : Flag}, s.flag? id = some f → f.isChild = false → f.changed →
    f.helpRequested = false → f.value.isSome
  /-- If a flag was changed otherwise than by a request for help, then so were the flags around
  it. -/
  changed_of_encloses : ∀ {id a : Nat} {f g : Flag}, s.flag? id = some f → s.flag? a = some g →
    g.encloses f → f.changed → f.helpRequested = false → g.changed

/-- Before anything is given, there is nothing for the marks to disagree with. -/
theorem Fresh.coherent {s : FlagSet} (h : s.Fresh) : s.Coherent := by
  have hchanged : ∀ {id : Nat} {f : Flag}, s.flag? id = some f → f.changed = false := by
    intro id f hf
    rw [← h id f hf]
    rfl
  refine ⟨fun {id f} hf _ => ?_, fun hf _ hmark _ => ?_, fun hf _ _ hmark _ => ?_⟩
  · rw [← h id f hf]
    rfl
  · simp [hchanged hf] at hmark
  · simp [hchanged hf] at hmark

/-! ## Steps -/

/-- A flag after one of the flags was changed is the changed one, or it was there before. -/
theorem exists_of_flag?_modify {s : FlagSet} {id other : Nat} {m : Flag → Flag} {g : Flag}
    (h : (s.modify id m).flag? other = some g) :
    ∃ f, s.flag? other = some f ∧ (other = id ∧ g = m f ∨ g = f) := by
  rw [flag?_modify] at h
  obtain ⟨f, hf, rfl⟩ := Option.map_eq_some_iff.mp h
  refine ⟨f, hf, ?_⟩
  split
  next hid => exact Or.inl ⟨hid.symm, rfl⟩
  next => exact Or.inr rfl

section Steps

variable {s : FlagSet} (hs : s.Coherent)

include hs

/-- Asking a flag for help marks it and leaves its value. -/
theorem Coherent.help (id : Nat) :
    (s.modify id fun f => { f with helpRequested := true, changed := true }).Coherent where
  value_of_isChild := by
    intro other g hg hchild
    obtain ⟨f, hf, ⟨-, rfl⟩ | rfl⟩ := exists_of_flag?_modify hg
    · exact hs.value_of_isChild (f := f) hf hchild
    · exact hs.value_of_isChild hf hchild
  isSome_value := by
    intro other g hg hchild hmark hhelp
    obtain ⟨f, hf, ⟨-, rfl⟩ | rfl⟩ := exists_of_flag?_modify hg
    · cases hhelp
    · exact hs.isSome_value hf hchild hmark hhelp
  changed_of_encloses := by
    intro other a g k hg hk hencloses hmark hhelp
    obtain ⟨h, hh, ⟨-, rfl⟩ | rfl⟩ := exists_of_flag?_modify hk
    · rfl
    obtain ⟨f, hf, ⟨-, rfl⟩ | rfl⟩ := exists_of_flag?_modify hg
    · cases hhelp
    · exact hs.changed_of_encloses hf hh hencloses hmark hhelp

/-- An external flag takes a value of its own, and no flag is around it. -/
theorem Coherent.external {id : Nat} {f : Flag} (hf : s.flag? id = some f)
    (hplace : f.place? = none) (v : Option Json → Json) :
    (s.modify id fun f => { f with value := some (v f.value), changed := true }).Coherent where
  value_of_isChild := by
    intro other g hg hchild
    obtain ⟨k, hk, ⟨rfl, rfl⟩ | rfl⟩ := exists_of_flag?_modify hg
    · -- The flag that changes stands for no place, and so it is no child.
      cases hf.symm.trans hk
      change f.place?.any _ at hchild
      rw [hplace] at hchild
      cases hchild
    · exact hs.value_of_isChild hk hchild
  isSome_value := by
    intro other g hg hchild hmark hhelp
    obtain ⟨k, hk, ⟨-, rfl⟩ | rfl⟩ := exists_of_flag?_modify hg
    · rfl
    · exact hs.isSome_value hk hchild hmark hhelp
  changed_of_encloses := by
    intro other a g k hg hk hencloses hmark hhelp
    obtain ⟨h, hh, ⟨-, rfl⟩ | rfl⟩ := exists_of_flag?_modify hk
    · rfl
    obtain ⟨e, he, ⟨rfl, rfl⟩ | rfl⟩ := exists_of_flag?_modify hg
    · -- Nor does any other flag enclose it.
      cases hf.symm.trans he
      change k.encloses f at hencloses
      simp [Flag.encloses_eq_false hplace] at hencloses
    · exact hs.changed_of_encloses he hh hencloses hmark hhelp

/-- Writing at a place marks the flags around it, and gives a value to the root among them. -/
theorem Coherent.store (hrooted : s.Rooted) (hnested : s.Nested) {c : Nat} {f : Flag} {p : Place}
    (hf : s.flag? c = some f) (hp : f.place? = some p) (v : Json) : (s.store f p v).Coherent where
  value_of_isChild := by
    intro id g hg hchild
    rw [flag?_store] at hg
    obtain ⟨k, hk, rfl⟩ := Option.map_eq_some_iff.mp hg
    change k.isChild at hchild
    -- The root, which gets the value, is not inside of another flag.
    have hroot : p.root ≠ id := by
      rintro rfl
      obtain ⟨q, hq, -, hpath⟩ :=
        hrooted.place_of_mem _ (hrooted.root_mem c p ((place?_of_flag? hf).trans hp))
      have hkq : k.place? = some q := (place?_of_flag? hk).symm.trans hq
      simp [Flag.isChild_of_place? hkq, hnested.parent_eq_none hq hpath] at hchild
    simpa only [if_neg hroot] using hs.value_of_isChild hk hchild
  isSome_value := by
    intro id g hg hchild hmark hhelp
    rw [flag?_store] at hg
    obtain ⟨k, hk, rfl⟩ := Option.map_eq_some_iff.mp hg
    change k.isChild = false at hchild
    by_cases hroot : p.root = id
    · simp [hroot]
    · simp only [if_neg hroot]
      refine hs.isSome_value hk hchild ((Bool.or_eq_true _ _).mp hmark |>.resolve_right ?_) hhelp
      -- Of the flags around the place, only the root is inside of no other flag.
      intro hencloses
      obtain ⟨q, hq, hqroot⟩ := Flag.place?_of_encloses hp hencloses
      have hparent : q.parent = none := by simpa [Flag.isChild_of_place? hq] using hchild
      exact hroot (hqroot.symm.trans (hnested.root ((place?_of_flag? hk).trans hq) hparent).1)
  changed_of_encloses := by
    intro id a g h hg hh hencloses hmark hhelp
    rw [flag?_store] at hg hh
    obtain ⟨k, hk, rfl⟩ := Option.map_eq_some_iff.mp hg
    obtain ⟨l, hl, rfl⟩ := Option.map_eq_some_iff.mp hh
    have hlk : l.encloses k := hencloses
    rw [Bool.or_eq_true] at hmark ⊢
    exact hmark.imp (hs.changed_of_encloses hk hl hlk · hhelp) (Flag.encloses_trans hlk)

/-- Giving a text to a flag keeps marks and values together. -/
theorem Coherent.trySet (hrooted : s.Rooted) (hnested : s.Nested) (host : Host) (id : Nat)
    (raw : String) : (s.trySet host id raw).1.Coherent := by
  have h := given_trySet host s id raw
  generalize s.trySet host id raw = r at h ⊢
  cases h with
  | help => exact hs.help id
  | unknown => exact hs
  | @external f e hraw hflag hrole =>
    have hplace : f.place? = none := by rw [Flag.place?, hrole]
    exact hs.external hflag hplace fun current => nextExternal e current raw
  | stored hraw hflag hrole hdecode =>
    exact hs.store hrooted hnested hflag (Flag.place?_eq_some_iff.mpr hrole) _
  | refused => exact hs

end Steps

/-! ## Runs -/

/-- A change inside of a value shows in the flag itself and in all its ancestors. -/
theorem Coherent.changed_of_surrounds {s : FlagSet} (hs : s.Coherent) (hnested : s.Nested)
    {a id : Nat} {f : Flag} {p : Place} (hf : s.flag? id = some f) (hp : f.place? = some p)
    (hchanged : f.changed) (hhelp : f.helpRequested = false) (ha : s.Surrounds a id) :
    ∃ g, s.flag? a = some g ∧ g.changed := by
  obtain ⟨q, hq, hroot, hpath⟩ :=
    prefix_of_surrounds hnested ((place?_of_flag? hf).trans hp) ha
  obtain ⟨g, hg, hgq⟩ := Option.bind_eq_some_iff.mp hq
  have hencloses : g.encloses f := by simp [Flag.encloses, hgq, hp, hroot, hpath]
  exact ⟨g, hg, hs.changed_of_encloses hf hg hencloses hchanged hhelp⟩

/-- Whatever is done to the flags of an operation, what they are does not change, nor the lists and
the table of names. A flag inside of another one never holds a value. Any other flag that holds a
value is marked as changed, and one that is marked holds a value unless it was asked for help. If a
flag inside of another one is marked and was not asked for help, then all its ancestors are marked.
So the value that is given for a property is the one that resolution sees, whatever the surroundings
and the default have. -/
theorem coherent_of_reachable {op : Descriptor} {reserved : List String}
    {extras : List (String × External)} {start s : FlagSet}
    (hstart : ofOperation op reserved extras = .ok start) (hs : Reachable start s) :
    s.blank = start.blank ∧
    (∀ id f, s.flag? id = some f →
      (f.isChild → f.value = none) ∧
      (f.isChild = false → f.value.isSome → f.changed) ∧
      (f.isChild = false → f.changed → f.helpRequested = false → f.value.isSome) ∧
      (f.isChild → f.changed → f.helpRequested = false → ∀ a, s.Surrounds a id →
        ∃ g, s.flag? a = some g ∧ g.changed)) ∧
    ∀ id ∈ s.roots, ∀ f p v, s.flag? id = some f → f.place? = some p → s.value? id = some v →
      ∀ source, s.effectiveValue? source id f p = some v := by
  have hdeclares := declares_ofOperation hstart
  have hblank := blank_of_reachable hs
  have hnested := nested_ofOperation hstart
  obtain ⟨hrooted, hmarked, -⟩ := hdeclares.reached hs
  -- The marks go together at the start, and every text that is given keeps them together.
  have hcoherent : s.Coherent := by
    refine (hs.preserves (P := fun t => t.blank = start.blank ∧ t.Coherent) ?_
      ⟨rfl, hdeclares.fresh.coherent⟩).2
    rintro host t id raw ⟨hblank, hcoherent⟩
    exact ⟨(blank_trySet host t id raw).trans hblank, hcoherent.trySet
      (hdeclares.rooted.congr hblank.symm) (hnested.congr hblank.symm) host id raw⟩
  refine ⟨hblank, fun id f hf => ⟨hcoherent.value_of_isChild hf, fun _ => hmarked id f hf,
    hcoherent.isSome_value hf, fun hchild hchanged hhelp a ha => ?_⟩, ?_⟩
  · obtain ⟨p, hp, -⟩ := (Option.any_eq_true _ _).mp hchild
    exact hcoherent.changed_of_surrounds (hnested.congr hblank.symm) hf hp hchanged hhelp ha
  · -- A value that was given is the one that counts, whatever the source has.
    intro id hid f p v hf hp hv source
    rw [effectiveValue?_eq hrooted hmarked source hid hf hp, finalValue?, place?_of_flag? hf, hp,
      Option.bind_some, hv]
    rfl

/-- After the disk is asked for help and its label is set, the label holds no value, the disk is
marked, and resolution sees what was given whatever the surroundings have. -/
theorem coherent_of_reachable_mount :
    ∃ start s f g p v, ofOperation mount [] [] = .ok start ∧ Reachable start s ∧
      s.flag? 1 = some f ∧ f.isChild ∧ f.value = none ∧ s.flag? 0 = some g ∧ g.place? = some p ∧
      s.value? 0 = some v ∧ s.effectiveValue? (fun _ => some .null) 0 g p = some v := by
  have hrun : (ofOperation mount [] []).toOption.any (fun start =>
      let s := ((start.trySet Host.bare 0 helpWord).1.trySet Host.bare 1 "data").1
      (s.flag? 1).any Flag.isChild && (s.flag? 0).any (fun g => g.place?.isSome) &&
        (s.value? 0).isSome && s.roots.contains 0) = true := by decide +kernel
  obtain ⟨start, hstart, hrun⟩ := (Option.any_eq_true _ _).mp hrun
  simp only [Bool.and_eq_true, Option.any_eq_true, Option.isSome_iff_exists,
    List.contains_iff_mem] at hrun
  obtain ⟨⟨⟨⟨f, hf, hchild⟩, g, hg, p, hp⟩, v, hv⟩, hroot⟩ := hrun
  have hstart := eq_ok_of_toOption hstart
  have hs : Reachable start _ := .set Host.bare 1 "data" (.set Host.bare 0 helpWord .start)
  obtain ⟨-, hflags, hseen⟩ := coherent_of_reachable hstart hs
  exact ⟨start, _, f, g, p, v, hstart, hs, hf, hchild, (hflags 1 f hf).1 hchild, hg, hp, hv,
    hseen 0 hroot g p v hg hp hv _⟩

end FlagSet

end ApiCommand
