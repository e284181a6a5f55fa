import ApiCommand.Proofs.Flag.Shape
import Mathlib.Data.List.Basic

/-!
# Trees of flags

The flags for all places in one value form a tree, whose top is the root flag that holds the value;
an external flag is a tree of its own. Giving a text to a flag depends on nothing but the flags of
its tree (`AgreeOn.trySet`) and changes no others (`agreeOn_trySet`). So texts for different trees
can be given in any order (`trySet_comm`), and a list of texts does the same in every order that is
the same within each tree, apart from the order of its issues (`setEach_of_reordered`).
-/

namespace ApiCommand

/-! ## Lists in the same order within groups -/

/-- One list arises from the other by exchanging neighbours with different keys. -/
inductive Reordered {α κ : Type} (key : α → κ) : List α → List α → Prop
  | refl (xs : List α) : Reordered key xs xs
  | cons (x : α) {xs ys : List α} : Reordered key xs ys → Reordered key (x :: xs) (x :: ys)
  | swap {x y : α} (hkey : key x ≠ key y) (rest : List α) :
      Reordered key (x :: y :: rest) (y :: x :: rest)
  | trans {xs ys zs : List α} :
      Reordered key xs ys → Reordered key ys zs → Reordered key xs zs

section Reordered

variable {α κ : Type} {key : α → κ}

/-- The first item can be moved behind items with other keys. -/
theorem reordered_move {x : α} {front : List α} (h : ∀ y ∈ front, key y ≠ key x) (rest : List α) :
    Reordered key (x :: (front ++ rest)) (front ++ x :: rest) := by
  induction front with
  | nil => exact .refl _
  | cons y front ih =>
    obtain ⟨hy, hfront⟩ := List.forall_mem_cons.mp h
    exact (Reordered.swap hy.symm _).trans (.cons y (ih hfront))

/-- It is enough that for each key the items with this key are in the same order: the first item of
one list is the first one with its key in the other list, and so it can be moved to the front. -/
theorem reordered_of_filter_eq [DecidableEq κ] {xs ys : List α}
    (h : ∀ k, xs.filter (fun x => key x = k) = ys.filter fun x => key x = k) :
    Reordered key xs ys := by
  induction xs generalizing ys with
  | nil =>
    have hys : ys = [] := by
      refine List.eq_nil_iff_forall_not_mem.mpr fun y hy => ?_
      have hmem : y ∈ ys.filter fun x => key x = key y := List.mem_filter.mpr ⟨hy, by simp⟩
      rw [← h] at hmem
      cases hmem
    rw [hys]
    exact .refl []
  | cons x xs ih =>
    have hx := h (key x)
    rw [List.filter_cons_of_pos (by simp)] at hx
    -- In front of the first item with the key of `x` there are only items with other keys.
    obtain ⟨front, rest, rfl, hfront, -, -⟩ := List.filter_eq_cons_iff.mp hx.symm
    simp only [decide_eq_true_eq] at hfront
    refine (Reordered.cons x (ih fun k => ?_)).trans (reordered_move hfront rest)
    have hk := h k
    rw [List.filter_append] at hk ⊢
    by_cases hxk : key x = k
    · have hnone : front.filter (fun y => key y = k) = [] :=
        List.filter_eq_nil_iff.mpr fun y hy => by simpa [hxk] using hfront y hy
      simpa [hxk, hnone] using hk
    · simpa [hxk] using hk

end Reordered

namespace FlagSet

/-! ## What belongs together -/

/-- The top of the tree that a flag belongs to: the root flag that holds its value, or the flag
itself. -/
def top (s : FlagSet) (id : Nat) : Nat := ((s.place? id).map Place.root).getD id

/-- The top of a place is the root flag that it belongs to. -/
theorem top_of_place? {s : FlagSet} {id : Nat} {p : Place} (hp : s.place? id = some p) :
    s.top id = p.root := by
  rw [top, hp]
  rfl

theorem top_congr {s t : FlagSet} (h : s.blank = t.blank) (id : Nat) : s.top id = t.top id := by
  rw [top, place?_congr h, top]

/-- A root flag is at the top of its tree. -/
theorem Rooted.top_root {s : FlagSet} (hs : s.Rooted) {id : Nat} {p : Place}
    (hp : s.place? id = some p) : s.top p.root = p.root := by
  obtain ⟨q, hq, hroot, -⟩ := hs.place_of_mem _ (hs.root_mem id p hp)
  rw [top_of_place? hq, hroot]

/-- Two flag sets with the same shape are equal if all flags are. -/
theorem eq_of_flag?_eq {s t : FlagSet} (hblank : s.blank = t.blank)
    (hflag : ∀ id, s.flag? id = t.flag? id) : s = t := by
  have hflags : s.flags = t.flags := List.ext_getElem? hflag
  cases s
  cases t
  simp only [blank, FlagSet.mk.injEq] at hblank hflags ⊢
  exact ⟨hflags, hblank.2⟩

/-- The flags with the given numbers are the same in both sets. -/
def AgreeOn (ids : Nat → Prop) (s t : FlagSet) : Prop := ∀ id, ids id → s.flag? id = t.flag? id

section AgreeOn

variable {ids : Nat → Prop} {s t : FlagSet} (h : AgreeOn ids s t)

include h

/-- Sets that agree on some flags still do when the same flag is changed in both. -/
theorem AgreeOn.modify (id : Nat) (g : Flag → Flag) :
    AgreeOn ids (s.modify id g) (t.modify id g) := by
  intro other hother
  rw [flag?_modify, flag?_modify, h other hother]

/-- Storing the same value in both sets leaves them in agreement. -/
theorem AgreeOn.store (f : Flag) (p : Place) (v : Json) :
    AgreeOn ids (s.store f p v) (t.store f p v) := by
  intro other hother
  rw [flag?_store, flag?_store, h other hother]

/-- The value of a flag depends on the flag and on the root that holds the value. -/
theorem AgreeOn.value? {id : Nat} (hid : ids id) (hroot : ∀ p, s.place? id = some p → ids p.root) :
    s.value? id = t.value? id := by
  have hflag := h id hid
  rw [FlagSet.value?, FlagSet.value?, ← hflag]
  cases hf : s.flag? id with
  | none => rfl
  | some f =>
    cases hrole : f.role with
    | external e => simp only [Option.bind_some, hrole]
    | place p =>
      have hp : s.place? id = some p :=
        (place?_of_flag? hf).trans (Flag.place?_eq_some_iff.mpr hrole)
      simp only [Option.bind_some, hrole, h p.root (hroot p hp)]

/-- Giving a text to a flag depends on the flag and on the root that holds its value. -/
theorem AgreeOn.trySet {id : Nat} (hid : ids id) (hroot : ∀ p, s.place? id = some p → ids p.root)
    (host : Host) (raw : String) :
    AgreeOn ids (s.trySet host id raw).1 (t.trySet host id raw).1 ∧
      (s.trySet host id raw).2 = (t.trySet host id raw).2 := by
  -- The value that is there decides what the text is read as.
  have hvalue := h.value? hid hroot
  unfold FlagSet.trySet set
  by_cases hraw : raw = helpWord
  · simp only [if_pos hraw]
    exact ⟨h.modify id _, trivial⟩
  simp only [if_neg hraw, ← h id hid, ← hvalue]
  cases hf : s.flag? id with
  | none => exact ⟨h, rfl⟩
  | some f =>
    cases hrole : f.role with
    | external e =>
      simp only [hrole]
      exact ⟨h.modify id _, trivial⟩
    | place p =>
      simp only [hrole]
      cases p.schema.decode host (s.value? id) raw with
      | ok v => exact ⟨h.store f p v, rfl⟩
      | error fault => exact ⟨h, rfl⟩

end AgreeOn

/-! ## Trees do not interfere -/

section Rooted

variable {s : FlagSet} (hs : s.Rooted)

include hs

/-- Giving a text to a flag changes no flag of another tree. -/
theorem agreeOn_trySet (host : Host) (id : Nat) (raw : String) :
    AgreeOn (fun other => s.top other ≠ s.top id) (s.trySet host id raw).1 s := by
  intro other htop
  have hne : id ≠ other := by
    rintro rfl
    exact htop rfl
  have h := given_trySet host s id raw
  generalize s.trySet host id raw = r at h ⊢
  cases h with
  | help => simp [flag?_modify, hne]
  | unknown => rfl
  | external => simp [flag?_modify, hne]
  | @stored f p v hraw hflag hrole hdecode =>
    have hf := Flag.place?_eq_some_iff.mpr hrole
    have hp : s.place? id = some p := (place?_of_flag? hflag).trans hf
    rw [top_of_place? hp] at htop
    have hroot : p.root ≠ other := by
      rintro rfl
      exact htop (hs.top_root hp)
    rw [flag?_store]
    cases hg : s.flag? other with
    | none => rfl
    | some g =>
      -- A flag that encloses the one that is set belongs to the same tree.
      have hencloses : g.encloses f = false := by
        refine Bool.eq_false_iff.mpr fun hencloses => htop ?_
        obtain ⟨q, hq, hqp⟩ := Flag.place?_of_encloses hf hencloses
        rw [top_of_place? ((place?_of_flag? hg).trans hq), hqp]
      simp [hroot, hencloses]
  | refused => rfl

/-- Behind a text for another tree, a text does the same to its own tree. -/
theorem trySet_trySet (host : Host) {id other : Nat} (htop : s.top id ≠ s.top other)
    (raw text : String) :
    AgreeOn (fun k => s.top k = s.top other)
        ((s.trySet host id raw).1.trySet host other text).1 (s.trySet host other text).1 ∧
      ((s.trySet host id raw).1.trySet host other text).2 = (s.trySet host other text).2 := by
  have hframe : AgreeOn (fun k => s.top k = s.top other) (s.trySet host id raw).1 s :=
    fun k hk => agreeOn_trySet hs host id raw k fun h => htop (h.symm.trans hk)
  refine hframe.trySet rfl (fun p hp => ?_) host text
  rw [place?_congr (blank_trySet host s id raw)] at hp
  rw [hs.top_root hp, top_of_place? hp]

/-- Texts for different trees can be given in any order. -/
theorem trySet_comm (host : Host) {id other : Nat} (htop : s.top id ≠ s.top other)
    (raw text : String) :
    ((s.trySet host id raw).1.trySet host other text).1 =
      ((s.trySet host other text).1.trySet host id raw).1 := by
  -- After both texts, what is not in the tree of the second one is as it was after the first one.
  have hframe : ∀ {id other : Nat} {raw text : String} {k : Nat}, s.top k ≠ s.top other →
      ((s.trySet host id raw).1.trySet host other text).1.flag? k =
        (s.trySet host id raw).1.flag? k := by
    intro id other raw text k hk
    have hblank := blank_trySet host s id raw
    have hk' : (s.trySet host id raw).1.top k ≠ (s.trySet host id raw).1.top other := by
      rwa [top_congr hblank, top_congr hblank]
    exact agreeOn_trySet (hs.congr hblank.symm) host other text k hk'
  refine eq_of_flag?_eq ?_ fun k => ?_
  · simp only [blank_trySet]
  by_cases hother : s.top k = s.top other
  · have hid : s.top k ≠ s.top id := fun h => htop (h.symm.trans hother)
    rw [(trySet_trySet hs host htop raw text).1 k hother, hframe hid]
  · rw [hframe hother]
    by_cases hid : s.top k = s.top id
    · exact ((trySet_trySet hs host (Ne.symm htop) text raw).1 k hid).symm
    · rw [hframe hid, agreeOn_trySet hs host id raw k hid,
        agreeOn_trySet hs host other text k hother]

end Rooted

/-! ## Texts in another order -/

theorem setEach_cons (host : Host) (s : FlagSet) (e : Nat × String) (rest : List (Nat × String)) :
    s.setEach host (e :: rest) =
      (((s.trySet host e.1 e.2).1.setEach host rest).1,
        (s.trySet host e.1 e.2).2 ++ ((s.trySet host e.1 e.2).1.setEach host rest).2) :=
  rfl

/-- Texts that are in the same order within each tree lead to the same flags and to the same issues
in some order. -/
theorem setEach_of_reordered {start : FlagSet} (hstart : start.Rooted) (host : Host)
    {xs ys : List (Nat × String)} (h : Reordered (fun e => start.top e.1) xs ys) {s : FlagSet}
    (hs : s.blank = start.blank) :
    (s.setEach host xs).1 = (s.setEach host ys).1 ∧
      (s.setEach host xs).2.Perm (s.setEach host ys).2 := by
  induction h generalizing s with
  | refl xs => exact ⟨rfl, .refl _⟩
  | cons e _ ih =>
    obtain ⟨hflags, hissues⟩ := ih ((blank_trySet host s e.1 e.2).trans hs)
    rw [setEach_cons, setEach_cons]
    exact ⟨hflags, hissues.append_left _⟩
  | @swap d e hkey rest =>
    have hrooted : s.Rooted := hstart.congr hs.symm
    -- Neighbours that change places belong to different trees, and so neither sees what the other
    -- one does.
    rw [← top_congr hs, ← top_congr hs] at hkey
    have hcomm := trySet_comm hrooted host hkey d.2 e.2
    simp only [setEach_cons, hcomm, (trySet_trySet hrooted host hkey d.2 e.2).2,
      (trySet_trySet hrooted host hkey.symm e.2 d.2).2, ← List.append_assoc]
    exact ⟨trivial, List.perm_append_comm.append_right _⟩
  | trans _ _ ih₁ ih₂ =>
    obtain ⟨hflags₁, hissues₁⟩ := ih₁ hs
    obtain ⟨hflags₂, hissues₂⟩ := ih₂ hs
    exact ⟨hflags₁.trans hflags₂, hissues₁.trans hissues₂⟩

end FlagSet

end ApiCommand
