import ApiCommand.Text.FlagName
import Mathlib.Data.List.DropRight

/-!
# Names that can be written on a command line

Lower-case forms of letters and numbers are no separators (`isSeparator_of_mem_lower`), which is read
off the runs of code points. So where every segment of a name has a letter or a number, the name in
kebab case starts with no separator and contains none but hyphens and dots (`writable_flagName`).
-/

namespace ApiCommand

namespace Unicode

/-! ## Lower-case forms -/

/-- The code points of white space and of `-`, `.`, `=` and `_`. -/
def separatorCodes : List Nat :=
  [0x9, 0xA, 0xB, 0xC, 0xD, 0x20, 0x2D, 0x2E, 0x3D, 0x5F, 0x85, 0xA0, 0x1680, 0x2000, 0x2001,
    0x2002, 0x2003, 0x2004, 0x2005, 0x2006, 0x2007, 0x2008, 0x2009, 0x200A, 0x2028, 0x2029, 0x202F,
    0x205F, 0x3000]

/-- The character is white space, a hyphen, a dot, an equals sign or an underscore. -/
def isSeparator (c : Char) : Bool := separatorCodes.contains c.toNat

/-- A code in a list of runs is in one of them. -/
theorem exists_contains_of_inRuns {runs : List CodeRun} {code : Nat} (h : inRuns runs code) :
    ∃ r ∈ runs, r.contains code := by
  induction runs with
  | nil => cases h
  | cons r rest ih =>
    rw [inRuns] at h
    split at h
    next => cases h
    next =>
      rcases (Bool.or_eq_true _ _).mp h with hhead | hrest
      · exact ⟨r, List.mem_cons_self, hhead⟩
      · obtain ⟨q, hq, hcontains⟩ := ih hrest
        exact ⟨q, List.mem_cons_of_mem r hq, hcontains⟩

/-- White space separates words. -/
theorem isSeparator_of_isWhiteSpace {c : Char} (h : isWhiteSpace c) : isSeparator c := by
  have hruns : ∀ r ∈ whiteSpaceRuns, ∀ i < r.last - r.first + 1,
      r.first + i ∈ separatorCodes := by decide
  obtain ⟨r, hr, hcontains⟩ := exists_contains_of_inRuns h
  simp only [CodeRun.contains, Bool.and_eq_true, decide_eq_true_eq] at hcontains
  obtain ⟨⟨hfirst, hlast⟩, -⟩ := hcontains
  have hmem := hruns r hr (c.toNat - r.first) (by omega)
  rw [isSeparator, List.contains_iff_mem]
  rwa [Nat.add_sub_cancel' hfirst] at hmem

/-- Separators are neither letters nor numbers. -/
theorem inRuns_of_mem_separatorCodes : ∀ code ∈ separatorCodes,
    inRuns alphabeticRuns code = false ∧ inRuns numericRuns code = false := by
  decide +kernel

/-- A code point stays as it is unless it lies in one of the runs. -/
theorem shiftBy_eq (runs : List ShiftRun) (code : Nat) :
    shiftBy runs code = code ∨
      ∃ r ∈ runs, r.run.contains code ∧ shiftBy runs code = ((code : Int) + r.shift).toNat := by
  induction runs with
  | nil => exact .inl rfl
  | cons r rest ih =>
    rw [shiftBy]
    split
    next => exact .inl rfl
    next =>
      split
      next hcontains => exact .inr ⟨r, List.mem_cons_self, hcontains, rfl⟩
      next =>
        refine ih.imp_right ?_
        rintro ⟨q, hq, hspec⟩
        exact ⟨q, List.mem_cons_of_mem r hq, hspec⟩

/-- No code point is mapped to that of a separator. -/
theorem lowerShifts_contains_eq_false : ∀ r ∈ lowerShifts, ∀ code ∈ separatorCodes,
    r.run.contains ((code : Int) - r.shift).toNat = false := by
  decide +kernel

/-- A number that is no code point stands for the null character. -/
theorem toNat_ofNat (code : Nat) :
    (Char.ofNat code).toNat = code ∨ (Char.ofNat code).toNat = 0 := by
  by_cases h : code.isValidChar
  · rw [Char.ofNat, dif_pos h]
    exact .inl rfl
  · rw [Char.ofNat, dif_neg h]
    exact .inr rfl

/-- A code that is not listed is that of no separator. -/
theorem isSeparator_ofNat {code : Nat} (h : code ∉ separatorCodes) :
    isSeparator (Char.ofNat code) = false := by
  rw [isSeparator, ← Bool.not_eq_true, List.contains_iff_mem]
  rcases toNat_ofNat code with heq | heq
  · rwa [heq]
  · rw [heq]
    decide

/-- The images of a letter or a number are no separators. -/
theorem isSeparator_of_mem_lower {c d : Char} (h : Text.isAlphanumeric c) (hd : d ∈ lower c) :
    isSeparator d = false := by
  have hexpansions : ∀ e ∈ lowerExpansions, ∀ code ∈ e.2, code ∉ separatorCodes := by decide
  unfold lower mapCase at hd
  split at hd
  next codes hcodes =>
    obtain ⟨before, after, hsplit, -⟩ := List.lookup_eq_some_iff.mp hcodes
    obtain ⟨code, hcode, rfl⟩ := List.mem_map.mp hd
    have hmem : (c.toNat, codes) ∈ lowerExpansions := by simp [hsplit]
    exact isSeparator_ofNat (hexpansions _ hmem code hcode)
  next =>
    rw [List.mem_singleton.mp hd]
    refine isSeparator_ofNat fun hmem => ?_
    rcases shiftBy_eq lowerShifts c.toNat with heq | ⟨r, hr, hcontains, heq⟩
    · -- The character is its own image.
      rw [heq] at hmem
      obtain ⟨halphabetic, hnumeric⟩ := inRuns_of_mem_separatorCodes _ hmem
      simp [Text.isAlphanumeric, isAlphabetic, isNumeric, halphabetic, hnumeric] at h
    · -- A shifted code point that ends at a separator would come from outside of the run.
      have hpositive : ∀ code ∈ separatorCodes, 0 < code := by decide
      have hpos := hpositive _ hmem
      have hback : ((shiftBy lowerShifts c.toNat : Int) - r.shift).toNat = c.toNat := by omega
      have hnot := lowerShifts_contains_eq_false r hr _ hmem
      rw [hback, hcontains] at hnot
      cases hnot

/-- No character is lost in lower case. -/
theorem lower_ne_nil (c : Char) : lower c ≠ [] := by
  have hexpansions : ∀ e ∈ lowerExpansions, e.2 ≠ [] := by decide
  unfold lower mapCase
  split
  next codes hcodes =>
    obtain ⟨before, after, hsplit, -⟩ := List.lookup_eq_some_iff.mp hcodes
    have hmem : (c.toNat, codes) ∈ lowerExpansions := by simp [hsplit]
    exact fun hnil => hexpansions _ hmem (List.map_eq_nil_iff.mp hnil)
  next => exact List.cons_ne_nil _ _

end Unicode

namespace Text

open Unicode

/-! ## Kebab case -/

theorem isAlphanumeric_apostrophe : isAlphanumeric '\'' = false := by decide +kernel

/-- What is written is a hyphen or belongs to the lower-case form of a letter or a number. -/
theorem mem_kebabFrom {apart small : Bool} {cs : List Char} {d : Char}
    (h : d ∈ kebabFrom apart small cs) : d = '-' ∨ ∃ c ∈ cs, isAlphanumeric c ∧ d ∈ lower c := by
  -- What is written for the rest belongs to a character of the rest.
  have hrest : ∀ {c : Char} {rest : List Char},
      (d = '-' ∨ ∃ e ∈ rest, isAlphanumeric e ∧ d ∈ lower e) →
        d = '-' ∨ ∃ e ∈ c :: rest, isAlphanumeric e ∧ d ∈ lower e := by
    rintro c rest (rfl | ⟨e, he, hspec⟩)
    · exact .inl rfl
    · exact .inr ⟨e, List.mem_cons_of_mem c he, hspec⟩
  induction cs generalizing apart small with
  | nil => cases h
  | cons c rest ih =>
    rw [kebabFrom] at h
    split at h
    next => exact hrest (ih h)
    next =>
      split at h
      next halphanumeric =>
        rcases List.mem_append.mp h with hhead | htail
        · rcases List.mem_append.mp hhead with hhyphen | hlower
          · split at hhyphen
            · exact .inl (List.mem_singleton.mp hhyphen)
            · cases hhyphen
          · exact .inr ⟨c, List.mem_cons_self, halphanumeric, hlower⟩
        · exact hrest (ih htail)
      next =>
        split at h
        next => exact hrest (ih h)
        next =>
          rcases List.mem_cons.mp h with rfl | htail
          · exact .inl rfl
          · exact hrest (ih htail)

/-- Every letter and every number is written. -/
theorem lower_subset_kebabFrom {cs : List Char} {c : Char} (hc : c ∈ cs) (h : isAlphanumeric c)
    (apart small : Bool) : lower c ⊆ kebabFrom apart small cs := by
  induction cs generalizing apart small with
  | nil => cases hc
  | cons e rest ih =>
    intro d hd
    rw [kebabFrom]
    rcases List.mem_cons.mp hc with rfl | hrest
    · rw [if_neg (by rintro rfl; simp [isAlphanumeric_apostrophe] at h), if_pos h]
      exact List.mem_append_left _ (List.mem_append_right _ hd)
    · split
      next => exact ih hrest _ _ hd
      next =>
        split
        next => exact List.mem_append_right _ (ih hrest _ _ hd)
        next =>
          split
          next => exact ih hrest _ _ hd
          next => exact List.mem_cons_of_mem _ (ih hrest _ _ hd)

/-- No hyphen stands in front of the first word. -/
theorem head?_kebabFrom_ne (small : Bool) (cs : List Char) :
    (kebabFrom true small cs).head? ≠ some '-' := by
  have hhyphen : isSeparator '-' := by decide
  induction cs with
  | nil => simp [kebabFrom]
  | cons c rest ih =>
    rw [kebabFrom]
    split
    next => exact ih
    next =>
      split
      next halphanumeric =>
        obtain ⟨d, ds, hlower⟩ := List.exists_cons_of_ne_nil (lower_ne_nil c)
        have hd := isSeparator_of_mem_lower halphanumeric (hlower ▸ List.mem_cons_self)
        intro heq
        simp only [Bool.not_true, Bool.false_and, Bool.false_eq_true, if_false, List.nil_append,
          hlower, List.cons_append, List.head?_cons, Option.some.injEq] at heq
        rw [heq, hhyphen] at hd
        cases hd
      next => rw [if_pos rfl]; exact ih

/-- Only hyphens at the end are dropped. -/
theorem kebabChars_eq_rdropWhile (cs : List Char) :
    kebabChars cs = (kebabFrom true false cs).rdropWhile (· == '-') := rfl

theorem kebabChars_isPrefix (cs : List Char) : kebabChars cs <+: kebabFrom true false cs :=
  List.rdropWhile_prefix _ _

/-! ## Names -/

/-- The name can be written behind two hyphens and in front of an equals sign: it starts with no
separator, and has no separators but hyphens and dots. -/
structure Writable (cs : List Char) : Prop where
  head : ∃ c, cs.head? = some c ∧ isSeparator c = false
  mem : ∀ c ∈ cs, c = '-' ∨ c = '.' ∨ isSeparator c = false

/-- A name that can be written is not empty. -/
theorem Writable.ne_nil {cs : List Char} (h : Writable cs) : cs ≠ [] := by
  obtain ⟨c, hc, -⟩ := h.head
  rintro rfl
  cases hc

/-- It does not start with a hyphen. -/
theorem Writable.head?_ne {cs : List Char} (h : Writable cs) : cs.head? ≠ some '-' := by
  obtain ⟨c, hc, hseparator⟩ := h.head
  rw [hc]
  rintro heq
  cases heq
  exact absurd hseparator (by decide)

/-- There is no equals sign in it. -/
theorem Writable.ne_equals {cs : List Char} (h : Writable cs) {c : Char} (hc : c ∈ cs) :
    c ≠ '=' := by
  rintro rfl
  rcases h.mem _ hc with heq | heq | hseparator
  · exact absurd heq (by decide)
  · exact absurd heq (by decide)
  · exact absurd hseparator (by decide)

/-- There is no white space in it. -/
theorem Writable.isWhiteSpace_eq_false {cs : List Char} (h : Writable cs) {c : Char}
    (hc : c ∈ cs) : isWhiteSpace c = false := by
  rcases h.mem c hc with rfl | rfl | hseparator
  · decide +kernel
  · decide +kernel
  · cases hspace : isWhiteSpace c with
    | false => rfl
    | true =>
      rw [isSeparator_of_isWhiteSpace hspace] at hseparator
      cases hseparator

/-- Something can be put behind a name if it brings no separators but hyphens and dots. -/
theorem Writable.append {xs ys : List Char} (h : Writable xs)
    (hys : ∀ c ∈ ys, c = '-' ∨ c = '.' ∨ isSeparator c = false) : Writable (xs ++ ys) where
  head := by
    obtain ⟨c, hc, hspec⟩ := h.head
    exact ⟨c, by rw [List.head?_append, hc]; rfl, hspec⟩
  mem := fun c hc => (List.mem_append.mp hc).elim (h.mem c) (hys c)

/-- A name that can be written goes on with another one behind a dot. -/
theorem Writable.dot {xs ys : List Char} (h : Writable xs) (h' : Writable ys) :
    Writable (xs ++ '.' :: ys) :=
  h.append fun c hc => (List.mem_cons.mp hc).elim (fun heq => .inr (.inl heq)) (h'.mem c)

/-- A segment with a letter or a number can be written in kebab case. -/
theorem writable_kebabChars {cs : List Char} (h : ∃ c ∈ cs, isAlphanumeric c) :
    Writable (kebabChars cs) := by
  obtain ⟨c, hc, halphanumeric⟩ := h
  have htrimmed := kebabChars_isPrefix cs
  have hmem : ∀ d ∈ kebabChars cs, d = '-' ∨ isSeparator d = false := by
    intro d hd
    refine (mem_kebabFrom (htrimmed.subset hd)).imp_right ?_
    rintro ⟨e, -, he, hlower⟩
    exact isSeparator_of_mem_lower he hlower
  -- The images of the letter are no hyphens, so they are not dropped at the end.
  have hne : kebabChars cs ≠ [] := by
    intro hnil
    obtain ⟨d, ds, hlower⟩ := List.exists_cons_of_ne_nil (lower_ne_nil c)
    have hd : d ∈ lower c := hlower ▸ List.mem_cons_self
    rw [kebabChars_eq_rdropWhile, List.rdropWhile_eq_nil_iff] at hnil
    have hhyphen := hnil d (lower_subset_kebabFrom hc halphanumeric true false hd)
    have hseparator := isSeparator_of_mem_lower halphanumeric hd
    rw [beq_iff_eq.mp hhyphen] at hseparator
    cases hseparator
  obtain ⟨d, ds, hcons⟩ := List.exists_cons_of_ne_nil hne
  -- What is left is in front of the hyphens that are dropped, so it starts as the whole does.
  refine ⟨⟨d, by rw [hcons]; rfl, ?_⟩, fun e he => (hmem e he).imp_right .inr⟩
  refine (hmem d (hcons ▸ List.mem_cons_self)).resolve_left ?_
  rintro rfl
  obtain ⟨rest, hrest⟩ := htrimmed
  refine head?_kebabFrom_ne false cs ?_
  rw [← hrest, hcons]
  rfl

/-- Every segment of the name has a letter or a number. -/
def Spoken (cs : List Char) : Prop := ∀ segment ∈ cs.splitOn '.', ∃ c ∈ segment, isAlphanumeric c

theorem all_any_iff_spoken {cs : List Char} :
    ((cs.splitOn '.').all fun segment => segment.any isAlphanumeric) = true ↔ Spoken cs := by
  simp only [List.all_eq_true, List.any_eq_true, Spoken]

/-- The check for names that can be spoken. -/
instance (cs : List Char) : Decidable (Spoken cs) :=
  decidable_of_iff _ all_any_iff_spoken

/-- A name with a letter or a number in every segment can be written. -/
theorem writable_flagName {s : String} (h : Spoken s.toList) : Writable (flagName s).toList := by
  have hsegments : ∀ image ∈ (s.toList.splitOn '.').map flagSegment, Writable image := by
    intro image himage
    obtain ⟨segment, hsegment, rfl⟩ := List.mem_map.mp himage
    have hwritable := writable_kebabChars (h segment hsegment)
    rw [flagSegment, if_neg (by simpa using hwritable.ne_nil)]
    exact hwritable
  have hne : (s.toList.splitOn '.').map flagSegment ≠ [] := by simp
  rw [flagName, String.toList_ofList]
  generalize (s.toList.splitOn '.').map flagSegment = images at hsegments hne
  induction images with
  | nil => exact absurd rfl hne
  | cons image rest ih =>
    obtain ⟨hhead, hrest⟩ := List.forall_mem_cons.mp hsegments
    cases rest with
    | nil => simpa using hhead
    | cons next rest =>
      rw [List.intercalate_cons_cons, List.append_assoc, List.singleton_append]
      exact hhead.dot (ih hrest (List.cons_ne_nil _ _))

/-- An underscore in front does not count. -/
theorem Spoken.of_underscore {rest : List Char} (h : Spoken ('_' :: rest)) : Spoken rest := by
  have hunderscore : isAlphanumeric '_' = false := by decide +kernel
  obtain ⟨first, others, hsplit⟩ :=
    List.exists_cons_of_ne_nil (List.splitOn_ne_nil '.' rest)
  unfold Spoken at h ⊢
  rw [List.splitOn_cons_eq_if_modifyHead, if_neg (by decide), hsplit, List.modifyHead_cons,
    List.forall_mem_cons] at h
  rw [hsplit, List.forall_mem_cons]
  refine ⟨?_, h.2⟩
  obtain ⟨c, hc, halphanumeric⟩ := h.1
  rcases List.mem_cons.mp hc with rfl | hc
  · rw [hunderscore] at halphanumeric
    cases halphanumeric
  · exact ⟨c, hc, halphanumeric⟩

/-- A name with a group in front can be spoken too. -/
theorem Spoken.control {rest : List Char} (h : Spoken rest) :
    Spoken ("control.".toList ++ rest) := by
  have hcontrol : "control.".toList ++ rest = "control".toList ++ '.' :: rest := rfl
  unfold Spoken at h ⊢
  rw [hcontrol, List.splitOn_append_cons_self_of_not_mem (by decide), List.forall_mem_cons]
  exact ⟨⟨'c', by decide, by decide +kernel⟩, h⟩

end Text

end ApiCommand
