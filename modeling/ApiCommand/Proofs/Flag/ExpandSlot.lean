import ApiCommand.Proofs.Flag.FixedPositional

/-!
# Texts for the expanding slot

The slot is known by the types that its schema admits, but its texts are read by the primary type,
which is the first one that is not null. So the slot collects its texts if the array is the primary
type. If the array comes behind another type, then the slot never has an array of its texts, and
each text takes the place of the one before, unless they are members of an object
(`setEach_of_expandSlot`).
-/

namespace ApiCommand

namespace FlagSet

/-- The text is neither a request for help nor the name of a file nor an array. -/
structure IsItemText (text : String) : Prop where
  ne_helpWord : text ≠ helpWord
  not_file : Value.namesFile text = false
  not_array : Value.opensWith '[' text = false

/-- Which of the three a text is can be told by looking at it. -/
instance (text : String) : Decidable (IsItemText text) :=
  decidable_of_iff (text ≠ helpWord ∧ Value.namesFile text = false ∧
      Value.opensWith '[' text = false)
    ⟨fun ⟨hhelp, hfile, harray⟩ => ⟨hhelp, hfile, harray⟩,
      fun ⟨hhelp, hfile, harray⟩ => ⟨hhelp, hfile, harray⟩⟩

/-- The slot is a positional flag that takes an array. -/
theorem exists_slot {s : FlagSet} {k : Nat} (h : s.expandSlot = .at k) :
    ∃ slot, s.positionals[k]? = some slot ∧ s.takesArray slot := by
  rw [expandSlot] at h
  split at h
  next => cases h
  next index hindex =>
    cases h
    have hmem := List.mem_singleton_self k
    rw [← hindex, List.mem_filter] at hmem
    exact (Option.any_eq_true _ _).mp hmem.2
  next => cases h

/-- A flag that takes an array has a schema that admits one. -/
theorem isArray_of_takesArray {s : FlagSet} {id : Nat} {p : Place} (hp : s.place? id = some p)
    (h : s.takesArray id) : p.schema.isArray := by
  obtain ⟨f, hf, hfp⟩ := Option.bind_eq_some_iff.mp hp
  simpa [takesArray, hf, Flag.schema?, hfp] using h

/-- What becomes of texts that are given in turn to a flag that takes an array and is unset. -/
structure GivenInTurn (host : Host) (s : FlagSet) (slot : Nat) (schema : Schema)
    (texts : List String) : Prop where
  /-- They are accepted exactly if each of them can be read where nothing is. -/
  accepts_iff : (∃ t, s.setEach host (texts.map fun text => (slot, text)) = (t, [])) ↔
    ∀ text ∈ texts, ∃ v, schema.decode host none text = .ok v
  /-- If the array is the primary type, then each text is an item of the value. -/
  collects : schema.primaryType? = some "array" →
    ∀ t, s.setEach host (texts.map fun text => (slot, text)) = (t, []) →
      ∃ items, texts.map (Schema.decodeItem host schema.items) = items.map Except.ok ∧
        t.value? slot = some (.array items)
  /-- Otherwise the value is no array. Unless it is an object, the last text alone decides. -/
  replaces : schema.primaryType? ≠ some "array" →
    ∀ t, s.setEach host (texts.map fun text => (slot, text)) = (t, []) →
      ∃ v, t.value? slot = some v ∧ (∀ items, v ≠ .array items) ∧
        (schema.primaryType? ≠ some "object" →
          ∀ last ∈ texts.getLast?, schema.decode host none last = .ok v)

/-- Texts that are given in turn to an unset root flag become what its schema makes of them. -/
theorem givenInTurn_of_isUnset {s : FlagSet} (hrooted : s.Rooted) (hnested : s.Nested) (host : Host)
    {slot : Nat} {p : Place} (hslot : slot ∈ s.roots) (hp : s.place? slot = some p)
    (hunset : s.isUnset slot) {texts : List String} (hne : texts ≠ [])
    (htexts : ∀ text ∈ texts, IsItemText text) : s.GivenInTurn host slot p.schema texts := by
  have hhelp : ∀ text ∈ texts, text ≠ helpWord := fun text htext => (htexts text htext).ne_helpWord
  have hread : ∀ t, s.setEach host (texts.map fun text => (slot, text)) = (t, []) →
      p.schema.decodeEach host none texts = .ok (t.value? slot) := by
    intro t ht
    rw [← value?_of_isUnset hunset]
    exact (decodeEach_of_setEach hrooted hnested host hslot hp hhelp ht).2
  have haccepts : (∃ t, s.setEach host (texts.map fun text => (slot, text)) = (t, [])) ↔
      ∀ text ∈ texts, ∃ v, p.schema.decode host none text = .ok v := by
    rw [← Schema.exists_decodeEach_iff host p.schema none]
    constructor
    · rintro ⟨t, ht⟩
      exact ⟨_, hread t ht⟩
    · rintro ⟨v, hv⟩
      rw [← value?_of_isUnset hunset] at hv
      exact exists_setEach_of_decodeEach hrooted hnested host hslot hp hhelp hv
  refine ⟨haccepts, fun harray t ht => ?_, fun harray t ht => ?_⟩
  · -- Every text can be read where nothing is, so it can be read as an item.
    have hitems : ∀ text ∈ texts, Value.namesFile text = false ∧
        Value.opensWith '[' text = false ∧
        ∃ item, Schema.decodeItem host p.schema.items text = .ok item := by
      intro text htext
      obtain ⟨-, hfile, hliteral⟩ := htexts text htext
      obtain ⟨v, hv⟩ := haccepts.mp ⟨t, ht⟩ text htext
      rw [Schema.decode_item host p.schema none harray hfile hliteral] at hv
      cases hitem : Schema.decodeItem host p.schema.items text with
      | ok item => exact ⟨hfile, hliteral, item, rfl⟩
      | error fault => simp [hitem, Except.map] at hv
    obtain ⟨items, hmap, heach⟩ := p.schema.decodeEach_of_array host none harray hitems
    rw [hread t ht, if_neg hne] at heach
    exact ⟨items, hmap, Except.ok.inj heach⟩
  · -- The value is what the last text is read as, beside what those before it have left.
    obtain ⟨before, last, rfl⟩ := (List.eq_nil_or_concat' texts).resolve_left hne
    obtain ⟨-, hfile, hliteral⟩ := htexts last (by simp)
    obtain ⟨there, v, hv, hvalue⟩ := p.schema.exists_decode_of_decodeEach host none (hread t ht)
    refine ⟨v, hvalue, ?_, fun hobject other hother => ?_⟩
    · rintro items rfl
      exact p.schema.decode_ne_array host there harray hfile hliteral items hv
    · rw [List.getLast?_concat, Option.mem_some_iff] at hother
      subst hother
      rw [← p.schema.decode_congr host there harray hobject none]
      exact hv

/-- The expanding slot takes an array, so texts that are given to it in turn while it is unset are
its items, none lost and none replaced, exactly if the array is its primary type. -/
theorem setEach_of_expandSlot (host : Host) {start s : FlagSet} (hstart : start.Arises)
    (hblank : s.blank = start.blank) {k : Nat} (hslot : s.expandSlot = .at k) :
    ∃ slot p, s.positionals[k]? = some slot ∧ s.place? slot = some p ∧ p.schema.isArray ∧
      (s.isUnset slot → ∀ texts, texts ≠ [] → (∀ text ∈ texts, IsItemText text) →
        s.GivenInTurn host slot p.schema texts) := by
  obtain ⟨hrooted, hnested, hroots⟩ := hstart.grounded.congr hblank.symm
  obtain ⟨slot, hpositional, htakes⟩ := exists_slot hslot
  have hmem := hroots slot (List.mem_of_getElem? hpositional)
  obtain ⟨p, hp, -⟩ := hrooted.place_of_mem slot hmem
  refine ⟨slot, p, hpositional, hp, isArray_of_takesArray hp htakes,
    fun hunset texts hne htexts => ?_⟩
  exact givenInTurn_of_isUnset hrooted hnested host hmem hp hunset hne htexts

/-- Two files that are given in turn are two items. -/
theorem setEach_of_expandSlot_send :
    ∃ s t items, ofOperation send [] [] = .ok s ∧ s.Arises ∧ s.expandSlot = .at 0 ∧
      s.isUnset 0 ∧ IsItemText "a" ∧ IsItemText "b" ∧
      s.setEach Host.bare [(0, "a"), (0, "b")] = (t, []) ∧
      t.value? 0 = some (.array items) ∧ items.length = 2 := by
  have hrun : (ofOperation send [] []).toOption.any (fun s =>
      s.positionals == [0, 1] && s.expandSlot == .at 0 && s.isUnset 0 &&
        (s.place? 0).any (fun p => p.schema.primaryType? == some "array") &&
        (s.setEach Host.bare [(0, "a"), (0, "b")]).2.isEmpty) = true := by decide +kernel
  obtain ⟨s, hs, hrun⟩ := (Option.any_eq_true _ _).mp hrun
  simp only [Bool.and_eq_true, Option.any_eq_true, beq_iff_eq, List.isEmpty_iff] at hrun
  obtain ⟨⟨⟨⟨hpositionals, hslot⟩, hunset⟩, q, hq, harray⟩, hissues⟩ := hrun
  have hs := eq_ok_of_toOption hs
  have htexts : ∀ text ∈ ["a", "b"], IsItemText text := by decide
  obtain ⟨slot, p, hpositional, hp, -, hgiven⟩ :=
    setEach_of_expandSlot Host.bare (.made hs) rfl hslot
  rw [hpositionals] at hpositional
  cases hpositional
  cases hq.symm.trans hp
  have hrun : s.setEach Host.bare [(0, "a"), (0, "b")] = (_, []) := Prod.ext rfl hissues
  obtain ⟨items, hitems, hvalue⟩ :=
    (hgiven hunset ["a", "b"] (by decide) htexts).collects harray _ hrun
  refine ⟨s, _, items, hs, .made hs, hslot, hunset, htexts _ (by simp), htexts _ (by simp), hrun,
    hvalue, ?_⟩
  simpa using (congrArg List.length hitems).symm

/-- An operation with recipients: a text, or an array of texts. -/
def notify : Descriptor :=
  { name := "notify"
    parameters := .object
      [("recipients", { types := ["string", "array"], items := some .string })] []
    configs := .emptyObject, positionals := ["recipients"] }

/-- Of two recipients that are given to the slot in turn, only the second one is kept. -/
theorem setEach_ne_notify :
    ∃ s t, ofOperation notify [] [] = .ok s ∧ s.expandSlot = .at 0 ∧ s.positionals = [0] ∧
      s.isUnset 0 ∧ IsItemText "a" ∧ IsItemText "b" ∧
      s.setEach Host.bare [(0, "a"), (0, "b")] = (t, []) ∧
      (t.value? 0).map Json.plainText = some "b" ∧
      ∀ items, t.value? 0 ≠ some (.array items) := by
  have hrun : (ofOperation notify [] []).toOption.any (fun s =>
      s.expandSlot == .at 0 && s.positionals == [0] && s.isUnset 0 &&
        (s.setEach Host.bare [(0, "a"), (0, "b")]).2.isEmpty &&
        ((s.setEach Host.bare [(0, "a"), (0, "b")]).1.value? 0).any fun v =>
          v.kind == .string && v.plainText == "b") = true := by decide +kernel
  obtain ⟨s, hs, hrun⟩ := (Option.any_eq_true _ _).mp hrun
  simp only [Bool.and_eq_true, Option.any_eq_true, beq_iff_eq, List.isEmpty_iff] at hrun
  obtain ⟨⟨⟨⟨hslot, hpositionals⟩, hunset⟩, hissues⟩, v, hv, hkind, htext⟩ := hrun
  refine ⟨s, _, eq_ok_of_toOption hs, hslot, hpositionals, hunset,
    by decide, by decide, Prod.ext rfl hissues,
    by rw [hv, Option.map_some, htext], fun items hitems => ?_⟩
  rw [hv] at hitems
  cases hitems
  cases hkind

end FlagSet

end ApiCommand
