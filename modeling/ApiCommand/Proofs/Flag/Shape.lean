import ApiCommand.Proofs.Flag.History

/-!
# The shape of a flag set

What the flags are is settled when they are made; afterwards only what is known of their values
changes (`blank_of_reachable`). Each place belongs to a root flag, which holds the value
(`Rooted`), so a root flag's own value is the one that was given to it (`value?_of_mem_roots`). A
flag that holds a value is marked as changed (`marked_of_reachable`), and a run without the help
word leaves no request for help (`quiet_applyLine`).
-/

namespace ApiCommand

namespace Flag

/-- The flag before anything is given to it. -/
def blank (f : Flag) : Flag := { f with value := none, changed := false, helpRequested := false }

theorem place?_eq_some_iff {f : Flag} {p : Place} : f.place? = some p ↔ f.role = .place p := by
  unfold place?
  cases f.role <;> simp

/-- A flag that encloses another one stands for a place in the same value. -/
theorem place?_of_encloses {f g : Flag} {p : Place} (hg : g.place? = some p) (h : f.encloses g) :
    ∃ q, f.place? = some q ∧ q.root = p.root := by
  unfold encloses at h
  rw [hg] at h
  cases hf : f.place? with
  | none => simp [hf] at h
  | some q =>
    simp only [hf, Bool.and_eq_true, beq_iff_eq] at h
    exact ⟨q, rfl, h.1⟩

/-- A flag for the whole of a value encloses all flags for places in it. -/
theorem encloses_of_path_eq_nil {f g : Flag} {p q : Place} (hf : f.place? = some p)
    (hg : g.place? = some q) (hroot : p.root = q.root) (hpath : p.path = []) : f.encloses g := by
  simp [encloses, hf, hg, hroot, hpath]

end Flag

namespace FlagSet

/-- The flags before anything is given to them. -/
def blank (s : FlagSet) : FlagSet := { s with flags := s.flags.map Flag.blank }

/-- The place that the flag with a number stands for. -/
def place? (s : FlagSet) (id : Nat) : Option Place := (s.flag? id).bind Flag.place?

/-! ## Single flags -/

theorem name_of_flag? {s : FlagSet} {id : Nat} {f : Flag} (h : s.flag? id = some f) :
    s.name id = f.name := by
  simp [name, h]

theorem place?_of_flag? {s : FlagSet} {id : Nat} {f : Flag} (h : s.flag? id = some f) :
    s.place? id = f.place? := by
  simp [place?, h]

/-! ## Single flags after a change -/

theorem flag?_modify (s : FlagSet) (id other : Nat) (g : Flag → Flag) :
    (s.modify id g).flag? other =
      (s.flag? other).map fun f => if id = other then g f else f :=
  List.getElem?_modify g id s.flags other

/-- Storing a value marks the flags around the place as changed and leaves names and places alone.
-/
theorem flag?_store (s : FlagSet) (f : Flag) (p : Place) (v : Json) (id : Nat) :
    (s.store f p v).flag? id =
      (s.flag? id).map fun g =>
        { g with
          changed := g.changed || g.encloses f
          value := if p.root = id then some (Json.graft p.path v g.value) else g.value } := by
  simp only [store, flag?, List.getElem?_modify, List.getElem?_map, Option.map_eq_map,
    Option.map_map]
  refine congrArg (Option.map · s.flags[id]?) (funext fun g => ?_)
  by_cases hroot : p.root = id <;> by_cases hencloses : g.encloses f <;>
    simp [hroot, hencloses, Function.comp]

theorem flag?_blank (s : FlagSet) (id : Nat) : s.blank.flag? id = (s.flag? id).map Flag.blank :=
  List.getElem?_map

/-! ## What never changes -/

/-- Changing a flag in a way that does not show when it is blank does not show in the set either. -/
theorem blank_modify (s : FlagSet) (id : Nat) {g : Flag → Flag} (hg : ∀ f, (g f).blank = f.blank) :
    (s.modify id g).blank = s.blank := by
  have hflags : (s.flags.modify id g).map Flag.blank = s.flags.map Flag.blank := by
    refine List.ext_getElem? fun other => ?_
    rw [List.getElem?_map, List.getElem?_map, List.getElem?_modify]
    by_cases hid : id = other <;> cases s.flags[other]? <;> simp [hid, hg]
  simp only [blank, modify, hflags]

/-- Storing a value keeps the shape of the set. -/
theorem blank_store (s : FlagSet) (f : Flag) (p : Place) (v : Json) :
    (s.store f p v).blank = s.blank := by
  have hflags : (s.store f p v).flags.map Flag.blank = s.flags.map Flag.blank := by
    refine List.ext_getElem? fun id => ?_
    have hflag := flag?_store s f p v id
    simp only [flag?] at hflag
    rw [List.getElem?_map, List.getElem?_map, hflag, Option.map_map]
    rfl
  simp only [blank, hflags]
  rfl

/-- Giving a text to a flag does not change what the flags are. -/
theorem blank_trySet (host : Host) (s : FlagSet) (id : Nat) (raw : String) :
    (s.trySet host id raw).1.blank = s.blank := by
  have h := given_trySet host s id raw
  generalize s.trySet host id raw = r at h ⊢
  cases h with
  | help => exact blank_modify s id fun _ => rfl
  | unknown => rfl
  | external => exact blank_modify s id fun _ => rfl
  | stored => exact blank_store s _ _ _
  | refused => rfl

/-- Setting flags keeps the shape of the set. -/
theorem blank_setEach (host : Host) (s : FlagSet) (entries : List (Nat × String)) :
    (s.setEach host entries).1.blank = s.blank := by
  induction entries generalizing s with
  | nil => rfl
  | cons e rest ih => exact (ih _).trans (blank_trySet host s e.1 e.2)

/-- What the flags are is the same in all states that are reached. -/
theorem blank_of_reachable {start s : FlagSet} (h : Reachable start s) : s.blank = start.blank :=
  h.preserves (P := fun t => t.blank = start.blank)
    (fun host t id raw ht => (blank_trySet host t id raw).trans ht) rfl

section Blank

variable {s t : FlagSet} (h : s.blank = t.blank)

include h

theorem roots_congr : s.roots = t.roots := by
  change s.blank.roots = t.blank.roots
  rw [h]

theorem flag?_congr (id : Nat) : (s.flag? id).map Flag.blank = (t.flag? id).map Flag.blank := by
  rw [← flag?_blank, ← flag?_blank, h]

/-- The places belong to the shape of a set. -/
theorem place?_congr (id : Nat) : s.place? id = t.place? id := by
  have hplace : ∀ u : FlagSet, u.place? id = ((u.flag? id).map Flag.blank).bind Flag.place? := by
    intro u
    unfold place?
    cases u.flag? id <;> rfl
  rw [hplace s, hplace t, flag?_congr h]

end Blank

/-! ## Roots -/

/-- Every place belongs to a root flag, and a root flag stands for the whole of its own value. -/
structure Rooted (s : FlagSet) : Prop where
  /-- A root flag stands for the whole of its own value. -/
  place_of_mem : ∀ id ∈ s.roots, ∃ p, s.place? id = some p ∧ p.root = id ∧ p.path = []
  /-- The value that a place is in is that of a root flag. -/
  root_mem : ∀ id p, s.place? id = some p → p.root ∈ s.roots

/-- Where the values of places are stored belongs to the shape of a set. -/
theorem Rooted.congr {s t : FlagSet} (hs : s.Rooted) (h : s.blank = t.blank) : t.Rooted where
  place_of_mem := by
    intro id hid
    rw [← roots_congr h] at hid
    rw [← place?_congr h]
    exact hs.place_of_mem id hid
  root_mem := by
    intro id p hp
    rw [← place?_congr h] at hp
    rw [← roots_congr h]
    exact hs.root_mem id p hp

/-- The value of a root flag is the one that was given to it. -/
theorem value?_of_mem_roots {s : FlagSet} (hs : s.Rooted) {id : Nat} (hid : id ∈ s.roots) :
    s.value? id = (s.flag? id).bind Flag.value := by
  obtain ⟨p, hplace, hroot, hpath⟩ := hs.place_of_mem id hid
  obtain ⟨f, hflag, hf⟩ := Option.bind_eq_some_iff.mp hplace
  have hrole := Flag.place?_eq_some_iff.mp hf
  simp only [value?, hflag, Option.bind_some, hrole, hroot, hpath, Json.project]
  cases f.value <;> rfl

/-! ## Marks -/

/-- A flag that has a value is marked as changed. -/
def Marked (s : FlagSet) : Prop := ∀ id f, s.flag? id = some f → f.value.isSome → f.changed

/-- Giving a text to a flag marks every flag whose value it sets: writing at a place marks the flags
that enclose it, and the root, which holds the value, is one of these. -/
theorem Marked.trySet {s : FlagSet} (hrooted : s.Rooted) (hs : s.Marked) (host : Host) (id : Nat)
    (raw : String) : (s.trySet host id raw).1.Marked := by
  have h := given_trySet host s id raw
  generalize s.trySet host id raw = r at h ⊢
  intro other g hg hvalue
  cases h with
  | help =>
    rw [flag?_modify] at hg
    obtain ⟨f, hf, rfl⟩ := Option.map_eq_some_iff.mp hg
    by_cases hid : id = other
    · simp [hid]
    · simp only [if_neg hid] at hvalue ⊢
      exact hs other f hf hvalue
  | unknown => exact hs other g hg hvalue
  | external =>
    rw [flag?_modify] at hg
    obtain ⟨f, hf, rfl⟩ := Option.map_eq_some_iff.mp hg
    by_cases hid : id = other
    · simp [hid]
    · simp only [if_neg hid] at hvalue ⊢
      exact hs other f hf hvalue
  -- Values are stored in root flags only, and storing marks the root flag.
  | @stored f p v hraw hflag hrole hdecode =>
    rw [flag?_store] at hg
    obtain ⟨f', hf', rfl⟩ := Option.map_eq_some_iff.mp hg
    have hf := Flag.place?_eq_some_iff.mpr hrole
    have hplace : s.place? id = some p := by rw [place?, hflag, Option.bind_some, hf]
    by_cases hroot : p.root = other
    · obtain ⟨q, hq, hqroot, hqpath⟩ := hrooted.place_of_mem _ (hrooted.root_mem id p hplace)
      have hq' : f'.place? = some q := by
        rw [hroot] at hq
        simpa [place?, hf'] using hq
      simp [Flag.encloses_of_path_eq_nil hq' hf hqroot hqpath]
    · -- The value of another root flag was there before.
      simp only [if_neg hroot] at hvalue
      simp [hs other f' hf' hvalue]
  | refused => exact hs other g hg hvalue

/-- A flag that has a value is marked as changed in all states that are reached, so an explicit
value is never mistaken for an absent one. -/
theorem marked_of_reachable {start s : FlagSet} (hrooted : start.Rooted) (hstart : start.Marked)
    (h : Reachable start s) : s.Marked := by
  refine (h.preserves (P := fun t => t.blank = start.blank ∧ t.Marked) ?_ ⟨rfl, hstart⟩).2
  rintro host t id raw ⟨hblank, hmarked⟩
  exact ⟨(blank_trySet host t id raw).trans hblank,
    hmarked.trySet (hrooted.congr hblank.symm) host id raw⟩

/-! ## Requests for help -/

/-- No flag for a place was asked for help. -/
def Quiet (s : FlagSet) : Prop :=
  ∀ id ∈ s.roots ++ s.children, ∀ f, s.flag? id = some f → f.helpRequested = false

/-- A text other than the word that asks for help asks for none. -/
theorem helpRequested_trySet {s : FlagSet} {host : Host} {id : Nat} {raw : String}
    (hraw : raw ≠ helpWord) (hs : ∀ id f, s.flag? id = some f → f.helpRequested = false) :
    ∀ other f, (s.trySet host id raw).1.flag? other = some f → f.helpRequested = false := by
  have h := given_trySet host s id raw
  generalize s.trySet host id raw = r at h ⊢
  intro other g hg
  cases h with
  | help hhelp => exact absurd hhelp hraw
  | unknown => exact hs other g hg
  | external =>
    rw [flag?_modify] at hg
    obtain ⟨f, hf, rfl⟩ := Option.map_eq_some_iff.mp hg
    have := hs other f hf
    split <;> exact this
  | stored =>
    rw [flag?_store] at hg
    obtain ⟨f, hf, rfl⟩ := Option.map_eq_some_iff.mp hg
    exact hs other f hf
  | refused => exact hs other g hg

/-- A command line without the help word asks no flag for help. -/
theorem quiet_applyLine {s : FlagSet} {host : Host} {line : CommandLine}
    (hoccurrences : ∀ e ∈ line.occurrences, e.2 ≠ helpWord)
    (hpositionals : ∀ arg ∈ line.positionals, arg ≠ helpWord)
    (hs : ∀ id f, s.flag? id = some f → f.helpRequested = false) :
    (s.applyLine host line).1.Quiet := by
  have hset : ∀ (t : FlagSet) (id : Nat) (raw : String), raw ≠ helpWord →
      (∀ id f, t.flag? id = some f → f.helpRequested = false) →
      ∀ other f, (t.trySet host id raw).1.flag? other = some f → f.helpRequested = false :=
    fun t id raw hraw ht => helpRequested_trySet hraw ht
  intro id _ f hf
  exact applyLine_preserves
    (P := fun t => ∀ id f, t.flag? id = some f → f.helpRequested = false)
    hset line hoccurrences hpositionals hs id f hf

end FlagSet

end ApiCommand
