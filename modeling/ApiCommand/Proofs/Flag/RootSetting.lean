import ApiCommand.Proofs.Flag.Setting
import ApiCommand.Proofs.Flag.Tree
import ApiCommand.Proofs.Value.Decode

/-!
# Giving texts to root flags

A value that is given to a root flag changes no other flag (`trySet_of_mem_roots`), since of the
flags for places in the value only the root encloses the root. So several unset root flags get their
values independently of each other (`setEachIfUnset_of_admits`). Texts that are given to one root
flag one after another are read one after another (`decodeEach_of_setEach`); those for an array are
its items in the end (`setEach_of_array`).
-/

namespace ApiCommand

namespace FlagSet

/-! ## Giving texts to flags for whole values -/

/-- All flags are what they were, apart from those with the given numbers. -/
structure Keeps (s t : FlagSet) (ids : List Nat) : Prop where
  blank_eq : t.blank = s.blank
  flag?_eq : ∀ {id : Nat}, id ∉ ids → t.flag? id = s.flag? id

theorem Keeps.refl (s : FlagSet) (ids : List Nat) : s.Keeps s ids := ⟨rfl, fun _ => rfl⟩

/-- What is kept by two settings is what neither of them is for. -/
theorem Keeps.trans {s t u : FlagSet} {ids more : List Nat} (h : s.Keeps t ids)
    (h' : t.Keeps u more) : s.Keeps u (ids ++ more) where
  blank_eq := h'.blank_eq.trans h.blank_eq
  flag?_eq := by
    intro id hid
    rw [List.mem_append, not_or] at hid
    rw [h'.flag?_eq hid.2, h.flag?_eq hid.1]

/-- An unset root flag can be given the text of the entry. -/
structure Admits (host : Host) (s : FlagSet) (e : Nat × String) : Prop where
  mem_roots : e.1 ∈ s.roots
  isUnset : s.isUnset e.1
  ne_helpWord : e.2 ≠ helpWord
  exists_decode : ∃ p v, s.place? e.1 = some p ∧ p.schema.decode host none e.2 = .ok v

section Keeps

variable {s t : FlagSet} (hrooted : s.Rooted) {ids : List Nat} (h : s.Keeps t ids)

include hrooted h

/-- A root flag that is not among those that were set has the value it had. -/
theorem Keeps.value?_eq {id : Nat} (hid : id ∈ s.roots) (hne : id ∉ ids) :
    t.value? id = s.value? id := by
  have hroots : id ∈ t.roots := by rwa [roots_congr h.blank_eq]
  rw [value?_of_mem_roots (hrooted.congr h.blank_eq.symm) hroots, value?_of_mem_roots hrooted hid,
    h.flag?_eq hne]

/-- A flag that was not set yet can still be given its text. -/
theorem Keeps.admits {host : Host} {e : Nat × String} (he : s.Admits host e) (hne : e.1 ∉ ids) :
    t.Admits host e where
  mem_roots := by
    rw [roots_congr h.blank_eq]
    exact he.mem_roots
  isUnset := by
    have hunset := he.isUnset
    rw [FlagSet.isUnset] at hunset ⊢
    rw [h.flag?_eq hne, h.value?_eq hrooted he.mem_roots hne]
    exact hunset
  ne_helpWord := he.ne_helpWord
  exists_decode := by
    rw [place?_congr h.blank_eq]
    exact he.exists_decode

end Keeps

/-- A flag that is unset has no value. -/
theorem value?_of_isUnset {s : FlagSet} {id : Nat} (h : s.isUnset id) : s.value? id = none := by
  rw [isUnset, Bool.and_eq_true] at h
  exact Option.isNone_iff_eq_none.mp h.2

section Whole

variable {s : FlagSet} (hrooted : s.Rooted) (hnested : s.Nested) (host : Host)

include hrooted hnested

/-- A value that is given to a root flag changes no other flag. -/
theorem trySet_of_mem_roots {id : Nat} {p : Place} {raw : String} {v : Json} (hid : id ∈ s.roots)
    (hp : s.place? id = some p) (hraw : raw ≠ helpWord)
    (hdecode : p.schema.decode host (s.value? id) raw = .ok v) :
    ∃ t, s.trySet host id raw = (t, []) ∧ s.Keeps t [id] ∧ t.value? id = some v := by
  obtain ⟨f, hf, hfp⟩ := Option.bind_eq_some_iff.mp hp
  obtain ⟨_, hp', hroot, hpath⟩ := hrooted.place_of_mem id hid
  cases hp.symm.trans hp'
  have hset := set_eq_of_place? host hraw hf hfp
  rw [hdecode] at hset
  refine ⟨s.store f p v, by rw [trySet, hset], ⟨blank_store s f p v, fun {other} hother => ?_⟩, ?_⟩
  · have hne : p.root ≠ other := fun heq => hother (by simp [← heq, hroot])
    rw [flag?_store]
    cases hg : s.flag? other with
    | none => rfl
    | some g =>
      -- Of the flags of this value, only its root encloses the root.
      have hencloses : g.encloses f = false := by
        refine Bool.eq_false_iff.mpr fun henc => hne ?_
        obtain ⟨q, hq, hqroot⟩ := Flag.place?_of_encloses hfp henc
        have hqpath : q.path = [] := by
          simp only [Flag.encloses, hq, hfp, hpath, Bool.and_eq_true] at henc
          exact List.prefix_nil.mp (List.isPrefixOf_iff_prefix.mp henc.2)
        have hplace : s.place? other = some q := (place?_of_flag? hg).trans hq
        rw [← hqroot]
        exact (hnested.root hplace (hnested.parent_eq_none hplace hqpath)).1
      simp [hne, hencloses]
  · rw [value?_store f p v hrooted hp hp rfl, Json.project_graft]

/-- Each of several unset root flags gets its value, and no other flag changes. -/
theorem setEachIfUnset_of_admits {entries : List (Nat × String)}
    (hnodup : (entries.map Prod.fst).Nodup) (hentries : ∀ e ∈ entries, s.Admits host e) :
    ∃ t, s.setEachIfUnset host entries = (t, []) ∧ s.Keeps t (entries.map Prod.fst) ∧
      ∀ e ∈ entries, ∀ p v, s.place? e.1 = some p → p.schema.decode host none e.2 = .ok v →
        t.value? e.1 = some v := by
  induction entries generalizing s with
  | nil => exact ⟨s, rfl, Keeps.refl s _, fun e he => by cases he⟩
  | cons e rest ih =>
    obtain ⟨hhead, hrest⟩ := List.forall_mem_cons.mp hentries
    rw [List.map_cons, List.nodup_cons] at hnodup
    obtain ⟨p, v, hp, hv⟩ := hhead.exists_decode
    rw [← value?_of_isUnset hhead.isUnset] at hv
    obtain ⟨t, ht, hkeeps, hvalue⟩ :=
      trySet_of_mem_roots hrooted hnested host hhead.mem_roots hp hhead.ne_helpWord hv
    -- The others are still unset, since they are other flags.
    have hnext : ∀ d ∈ rest, t.Admits host d := by
      intro d hd
      refine hkeeps.admits hrooted (hrest d hd) fun heq => hnodup.1 ?_
      rw [← List.mem_singleton.mp heq]
      exact List.mem_map_of_mem hd
    obtain ⟨u, hu, hkeeps', hvalues⟩ := ih (hrooted.congr hkeeps.blank_eq.symm)
      (hnested.congr hkeeps.blank_eq.symm) hnodup.2 hnext
    refine ⟨u, ?_, hkeeps.trans hkeeps', fun d hd q w hq hw => ?_⟩
    · rw [setEachIfUnset, setIfUnset, if_pos hhead.isUnset, ht]
      simp only [hu, List.nil_append]
    · rcases List.mem_cons.mp hd with rfl | hd
      · cases hp.symm.trans hq
        rw [← value?_of_isUnset hhead.isUnset] at hw
        cases hv.symm.trans hw
        have hroots : d.1 ∈ t.roots := by
          rw [roots_congr hkeeps.blank_eq]
          exact hhead.mem_roots
        rw [hkeeps'.value?_eq (hrooted.congr hkeeps.blank_eq.symm) hroots hnodup.1, hvalue]
      · rw [place?_congr hkeeps.blank_eq.symm] at hq
        exact hvalues d hd q w hq hw

/-- A text other than the help word that a root flag accepts is read behind its value. -/
theorem exists_decode_of_trySet {id : Nat} {p : Place} {raw : String} {t : FlagSet}
    (hid : id ∈ s.roots) (hp : s.place? id = some p) (hraw : raw ≠ helpWord)
    (h : s.trySet host id raw = (t, [])) :
    s.Keeps t [id] ∧ ∃ v, p.schema.decode host (s.value? id) raw = .ok v ∧
      t.value? id = some v := by
  cases hdecode : p.schema.decode host (s.value? id) raw with
  | ok v =>
    obtain ⟨u, hu, hkeeps, hvalue⟩ :=
      trySet_of_mem_roots hrooted hnested host hid hp hraw hdecode
    cases hu.symm.trans h
    exact ⟨hkeeps, v, rfl, hvalue⟩
  | error fault =>
    obtain ⟨f, hf, hfp⟩ := Option.bind_eq_some_iff.mp hp
    have hset := set_eq_of_place? host hraw hf hfp
    rw [hdecode] at hset
    simp [trySet, hset] at h

/-- Texts that a root flag accepts one after another are read one after another. -/
theorem decodeEach_of_setEach {slot : Nat} {p : Place} {texts : List String} {t : FlagSet}
    (hslot : slot ∈ s.roots) (hp : s.place? slot = some p)
    (htexts : ∀ text ∈ texts, text ≠ helpWord)
    (h : s.setEach host (texts.map fun text => (slot, text)) = (t, [])) :
    s.Keeps t (texts.map fun _ => slot) ∧
      p.schema.decodeEach host (s.value? slot) texts = .ok (t.value? slot) := by
  induction texts generalizing s with
  | nil =>
    cases h
    exact ⟨Keeps.refl _ _, rfl⟩
  | cons text rest ih =>
    obtain ⟨hhead, hrest⟩ := List.forall_mem_cons.mp htexts
    -- The first text was accepted, and so were the others, starting from what it left.
    rw [List.map_cons, setEach_cons, Prod.mk.injEq, List.append_eq_nil_iff] at h
    obtain ⟨hlast, hissues, hmore⟩ := h
    obtain ⟨hkeeps, v, hdecode, hvalue⟩ :=
      exists_decode_of_trySet hrooted hnested host hslot hp hhead (Prod.ext rfl hissues)
    -- The slot is still a root flag of the same schema.
    have hblank := hkeeps.blank_eq.symm
    obtain ⟨hkeeps', heach⟩ := ih (hrooted.congr hblank) (hnested.congr hblank)
      (by rwa [← roots_congr hblank]) (by rwa [← place?_congr hblank]) hrest
      (Prod.ext hlast hmore)
    rw [hvalue] at heach
    refine ⟨hkeeps.trans hkeeps', ?_⟩
    rw [Schema.decodeEach, hdecode]
    exact heach

/-- Texts that can be read one after another are accepted by a root flag one after another. -/
theorem exists_setEach_of_decodeEach {slot : Nat} {p : Place} {texts : List String}
    {v : Option Json} (hslot : slot ∈ s.roots) (hp : s.place? slot = some p)
    (htexts : ∀ text ∈ texts, text ≠ helpWord)
    (h : p.schema.decodeEach host (s.value? slot) texts = .ok v) :
    ∃ t, s.setEach host (texts.map fun text => (slot, text)) = (t, []) := by
  induction texts generalizing s with
  | nil => exact ⟨s, rfl⟩
  | cons text rest ih =>
    obtain ⟨hhead, hrest⟩ := List.forall_mem_cons.mp htexts
    rw [Schema.decodeEach] at h
    cases hdecode : p.schema.decode host (s.value? slot) text with
    | error fault => simp [hdecode, Except.bind] at h
    | ok w =>
      obtain ⟨t, ht, hkeeps, hvalue⟩ :=
        trySet_of_mem_roots hrooted hnested host hslot hp hhead hdecode
      -- The slot is still a root flag of the same schema.
      have hblank := hkeeps.blank_eq.symm
      obtain ⟨u, hu⟩ := ih (hrooted.congr hblank) (hnested.congr hblank)
        (by rwa [← roots_congr hblank]) (by rwa [← place?_congr hblank]) hrest (by
          rw [hvalue]
          rwa [hdecode] at h)
      exact ⟨u, by rw [List.map_cons, setEach_cons, ht, hu, List.nil_append]⟩

/-- Texts that are given to a flag for an array, none of which stands for a file or for an array
itself, become its items in their order behind those that are there. -/
theorem setEach_of_array {slot : Nat} {p : Place} (hslot : slot ∈ s.roots)
    (hp : s.place? slot = some p) (harray : p.schema.primaryType? = some "array")
    {texts : List String} (htexts : ∀ text ∈ texts, text ≠ helpWord ∧
      Value.namesFile text = false ∧ Value.opensWith '[' text = false ∧
      ∃ item, Schema.decodeItem host p.schema.items text = .ok item) :
    ∃ t items, s.setEach host (texts.map fun text => (slot, text)) = (t, []) ∧
      s.Keeps t (texts.map fun _ => slot) ∧
      texts.map (Schema.decodeItem host p.schema.items) = items.map Except.ok ∧
      t.value? slot = if texts = [] then s.value? slot
        else some (.array (Value.currentItems (s.value? slot) ++ items)) := by
  have hhelp : ∀ text ∈ texts, text ≠ helpWord := fun text htext => (htexts text htext).1
  obtain ⟨items, hitems, hread⟩ := p.schema.decodeEach_of_array host (s.value? slot) harray
    fun text htext => (htexts text htext).2
  obtain ⟨t, hrun⟩ := exists_setEach_of_decodeEach hrooted hnested host hslot hp hhelp hread
  obtain ⟨hkeeps, heach⟩ := decodeEach_of_setEach hrooted hnested host hslot hp hhelp hrun
  refine ⟨t, items, hrun, hkeeps, hitems, ?_⟩
  rw [hread] at heach
  exact (Except.ok.inj heach).symm

end Whole

end FlagSet

end ApiCommand
