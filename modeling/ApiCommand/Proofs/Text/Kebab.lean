import ApiCommand.Proofs.Text.FlagName
import ApiCommand.Proofs.Text.Split

/-!
# The shape of kebab case

Kebab case is made of words that single hyphens join (`hyphenated_kebabChars`), and the words hold
the lower-case forms of the letters and numbers of the text and nothing else
(`filter_kebabChars`). Small letters and numbers in words of this shape stay as they are
(`kebabChars_of_hyphenated`). The lower-case forms of ASCII letters are such small letters, so there
a second pass changes nothing, neither in a text nor between the dots of a name
(`hyphenated_kebab`). This ends with ASCII: the lower-case form of the capital I with a dot holds a
mark that is no letter and gets replaced by a hyphen.
-/

namespace ApiCommand.Text

open Unicode

/-! ## Hyphens -/

/-- Two hyphens in a row are at the start of a text or further on. -/
theorem doubled_cons {c : Char} {cs : List Char} :
    ['-', '-'] <:+: c :: cs ↔ c = '-' ∧ cs.head? = some '-' ∨ ['-', '-'] <:+: cs := by
  rw [List.infix_cons_iff]
  refine or_congr_left ?_
  cases cs with
  | nil => simp
  | cons d cs => simp [eq_comm]

/-- Characters other than hyphens bring no two hyphens in a row. -/
theorem doubled_append {xs ys : List Char} (h : '-' ∉ xs) :
    ['-', '-'] <:+: xs ++ ys ↔ ['-', '-'] <:+: ys := by
  induction xs with
  | nil => rfl
  | cons c xs ih =>
    have hc : c ≠ '-' := (List.ne_of_not_mem_cons h).symm
    rw [List.cons_append, doubled_cons, ih (List.not_mem_of_not_mem_cons h)]
    simp [hc]

/-- The text consists of words without hyphens that single hyphens join. -/
structure Hyphenated (cs : List Char) : Prop where
  head : cs.head? ≠ some '-'
  last : cs.getLast? ≠ some '-'
  single : ¬['-', '-'] <:+: cs

theorem isAlphanumeric_hyphen : isAlphanumeric '-' = false := by decide +kernel

/-- Letters and numbers bring no hyphens in lower case. -/
theorem hyphen_notMem_lower {c : Char} (h : isAlphanumeric c) : '-' ∉ lower c := by
  intro hmem
  have hseparator := isSeparator_of_mem_lower h hmem
  exact absurd hseparator (by decide)

/-- A hyphen is written only behind a letter or a number, and only if a word follows or a separator
was read, after which none is written until the next word. -/
theorem single_kebabFrom (apart small : Bool) (cs : List Char) :
    ¬['-', '-'] <:+: kebabFrom apart small cs := by
  induction cs generalizing apart small with
  | nil => simp [kebabFrom]
  | cons c rest ih =>
    rw [kebabFrom]
    split
    next => exact ih apart small
    next =>
      split
      next halphanumeric =>
        -- What follows the hyphen of a new word is the lower-case form, which is not empty.
        have hlower := hyphen_notMem_lower halphanumeric
        obtain ⟨d, ds, hcons⟩ := List.exists_cons_of_ne_nil (lower_ne_nil c)
        have hd : d ≠ '-' := fun heq => hlower (by rw [hcons, heq]; exact List.mem_cons_self)
        dsimp only
        split
        · rw [List.singleton_append, List.cons_append, doubled_cons, doubled_append hlower, hcons]
          simpa [hd] using ih _ _
        · rw [List.nil_append, doubled_append hlower]
          exact ih _ _
      next =>
        split
        next => exact ih apart small
        next =>
          rw [doubled_cons]
          rintro (⟨-, hhead⟩ | hdoubled)
          · exact head?_kebabFrom_ne false rest hhead
          · exact ih true false hdoubled

/-- Kebab case of every text is made of words that single hyphens join. -/
theorem hyphenated_kebabChars (cs : List Char) : Hyphenated (kebabChars cs) where
  head := by
    intro hhead
    obtain ⟨rest, hrest⟩ := kebabChars_isPrefix cs
    refine head?_kebabFrom_ne false cs ?_
    rw [← hrest, List.head?_append, hhead]
    rfl
  last := by
    intro hlast
    have hne : kebabChars cs ≠ [] := fun hnil => by
      rw [hnil] at hlast
      cases hlast
    rw [List.getLast?_eq_some_getLast hne, Option.some.injEq] at hlast
    exact List.rdropWhile_last_not (· == '-') (kebabFrom true false cs) hne (beq_iff_eq.mpr hlast)
  single := fun h =>
    single_kebabFrom true false cs (h.trans (kebabChars_isPrefix cs).isInfix)

/-! ## Letters and numbers -/

/-- Between the hyphens stand the lower-case forms of all letters and numbers, in order. -/
theorem filter_kebabFrom (apart small : Bool) (cs : List Char) :
    (kebabFrom apart small cs).filter (· ≠ '-') = (cs.filter isAlphanumeric).flatMap lower := by
  induction cs generalizing apart small with
  | nil => rfl
  | cons c rest ih =>
    rw [kebabFrom]
    split
    next heq =>
      subst heq
      rw [ih, List.filter_cons_of_neg (by simp [isAlphanumeric_apostrophe])]
    next =>
      split
      next halphanumeric =>
        -- The images of letters and numbers bring no hyphens, and so only those in between go.
        have hlower : (lower c).filter (· ≠ '-') = lower c :=
          List.filter_eq_self.mpr fun d hd =>
            decide_eq_true fun heq => hyphen_notMem_lower halphanumeric (heq ▸ hd)
        rw [List.filter_append, List.filter_append, hlower, ih,
          List.filter_cons_of_pos halphanumeric, List.flatMap_cons]
        split <;> simp
      next hnot =>
        -- Whether a hyphen is put for it or not, the character leaves nothing else.
        rw [List.filter_cons_of_neg hnot]
        split
        next => exact ih _ _
        next => rw [List.filter_cons_of_neg (by simp), ih]

/-- What is dropped at the end are hyphens. -/
theorem filter_kebabChars (cs : List Char) :
    (kebabChars cs).filter (· ≠ '-') = (cs.filter isAlphanumeric).flatMap lower := by
  have hend : ((kebabFrom true false cs).rtakeWhile (· == '-')).filter (· ≠ '-') = [] := by
    refine List.filter_eq_nil_iff.mpr fun c hc => ?_
    simpa using List.mem_rtakeWhile_imp hc
  calc (kebabChars cs).filter (· ≠ '-')
    _ = (kebabChars cs ++ (kebabFrom true false cs).rtakeWhile (· == '-')).filter (· ≠ '-') := by
      rw [List.filter_append, hend, List.append_nil]
    _ = (kebabFrom true false cs).filter (· ≠ '-') := by
      rw [kebabChars_eq_rdropWhile, List.rdropWhile_append_rtakeWhile]
    _ = (cs.filter isAlphanumeric).flatMap lower := filter_kebabFrom true false cs

/-! ## A second pass -/

/-- The character is a letter or a number, no capital, and its own lower-case form. -/
def IsSmall (c : Char) : Prop :=
  isAlphanumeric c ∧ isUppercase c = false ∧ lower c = [c]

/-- Whether a character is small can be checked. -/
instance (c : Char) : Decidable (IsSmall c) :=
  inferInstanceAs (Decidable (_ ∧ _ ∧ _))

/-- The lower-case form of an ASCII letter or number. -/
theorem isSmall_of_ascii {c d : Char} (hascii : c.toNat < 128) (h : isAlphanumeric c)
    (hd : d ∈ lower c) : IsSmall d := by
  -- A check of the list, since a statement on its members may be decided over all characters.
  have hcodes : ∀ code < 128, isAlphanumeric (Char.ofNat code) →
      (lower (Char.ofNat code)).all (IsSmall ·) := by
    decide +kernel
  have hc : Char.ofNat c.toNat = c := Char.ofNat_toNat c
  have hsmall := hcodes c.toNat hascii (hc.symm ▸ h)
  rw [hc, List.all_eq_true] at hsmall
  exact of_decide_eq_true (hsmall d hd)

/-- Small letters, numbers and single hyphens between them are written as they are. -/
theorem kebabFrom_of_isSmall {cs : List Char} (hsmall : ∀ c ∈ cs, c = '-' ∨ IsSmall c)
    (hsingle : ¬['-', '-'] <:+: cs) {apart : Bool} (hapart : apart → cs.head? ≠ some '-')
    (small : Bool) : kebabFrom apart small cs = cs := by
  induction cs generalizing apart small with
  | nil => rfl
  | cons c rest ih =>
    obtain ⟨hc, hrest⟩ := List.forall_mem_cons.mp hsmall
    rw [doubled_cons, not_or, not_and] at hsingle
    obtain ⟨hnext, hsingle⟩ := hsingle
    rw [kebabFrom]
    rcases hc with rfl | ⟨halphanumeric, hupper, hlower⟩
    · -- The hyphen is a separator, and what was read before it was none.
      have hfalse : apart = false := by
        rw [← Bool.not_eq_true]
        exact fun htrue => hapart htrue rfl
      rw [if_neg (by decide), if_neg (by simp [isAlphanumeric_hyphen]), if_neg (by simp [hfalse]),
        ih hrest hsingle fun _ => hnext rfl]
    · -- A new word begins at capitals only.
      have hne : c ≠ '\'' := by
        rintro rfl
        rw [isAlphanumeric_apostrophe] at halphanumeric
        cases halphanumeric
      have hih := @ih hrest hsingle false (by simp) (isLowercase c || isNumeric c)
      rw [if_neg hne, if_pos halphanumeric, hupper, hlower, hih]
      simp

/-- Small letters and numbers in words that single hyphens join are kebab case already. -/
theorem kebabChars_of_hyphenated {cs : List Char} (h : Hyphenated cs)
    (hsmall : ∀ c ∈ cs, c = '-' ∨ IsSmall c) : kebabChars cs = cs := by
  rw [kebabChars_eq_rdropWhile, kebabFrom_of_isSmall hsmall h.single fun _ => h.head,
    List.rdropWhile_eq_self_iff]
  intro hne hlast
  refine h.last ?_
  rw [List.getLast?_eq_some_getLast hne, beq_iff_eq.mp hlast]

/-- Hyphenating an ASCII text a second time changes nothing. -/
theorem kebabChars_kebabChars {cs : List Char} (hascii : ∀ c ∈ cs, c.toNat < 128) :
    kebabChars (kebabChars cs) = kebabChars cs := by
  refine kebabChars_of_hyphenated (hyphenated_kebabChars cs) fun d hd => ?_
  refine (mem_kebabFrom ((kebabChars_isPrefix cs).subset hd)).imp_right ?_
  rintro ⟨c, hc, halphanumeric, hlower⟩
  exact isSmall_of_ascii (hascii c hc) halphanumeric hlower

/-! ## Names -/

/-- The same goes for an ASCII segment. -/
theorem flagSegment_flagSegment {cs : List Char} (hascii : ∀ c ∈ cs, c.toNat < 128) :
    flagSegment (flagSegment cs) = flagSegment cs := by
  by_cases hempty : kebabChars cs = []
  · have hself : flagSegment cs = cs := by simp [flagSegment, hempty]
    rw [hself, hself]
  · have himage : flagSegment cs = kebabChars cs := by simp [flagSegment, hempty]
    rw [himage, flagSegment, kebabChars_kebabChars hascii]
    simp

/-- The image of a segment without dots has no dots. -/
theorem dot_notMem_flagSegment {cs : List Char} (h : '.' ∉ cs) : '.' ∉ flagSegment cs := by
  unfold flagSegment
  dsimp only
  split
  next => exact h
  next =>
    intro hdot
    rcases mem_kebabFrom ((kebabChars_isPrefix cs).subset hdot) with heq | ⟨c, -, hc, hlower⟩
    · exact absurd heq (by decide)
    · exact absurd (isSeparator_of_mem_lower hc hlower) (by decide)

/-- The segments of the image of a name are the images of its segments. -/
theorem splitOn_flagName (s : String) :
    (flagName s).toList.splitOn '.' = (s.toList.splitOn '.').map flagSegment := by
  have hdots : ∀ image ∈ (s.toList.splitOn '.').map flagSegment, '.' ∉ image := by
    intro image himage
    obtain ⟨segment, hsegment, rfl⟩ := List.mem_map.mp himage
    exact dot_notMem_flagSegment (sublist_of_mem_splitOn hsegment).2
  rw [flagName, String.toList_ofList, List.splitOn_intercalate '.' hdots (by simp)]

/-- Making a flag name of one that was made of an ASCII name changes nothing. -/
theorem flagName_flagName {s : String} (hascii : ∀ c ∈ s.toList, c.toNat < 128) :
    flagName (flagName s) = flagName s := by
  have hsegments : ((s.toList.splitOn '.').map flagSegment).map flagSegment =
      (s.toList.splitOn '.').map flagSegment := by
    rw [List.map_map]
    refine List.map_congr_left fun segment hsegment => ?_
    exact flagSegment_flagSegment fun c hc =>
      hascii c ((sublist_of_mem_splitOn hsegment).1.subset hc)
  rw [flagName, splitOn_flagName, hsegments, flagName]

/-- Kebab case of every text has no hyphen at either end and no two in a row, and without its
hyphens it is the lower-case form, character by character, of the letters and numbers of the text.
A name in kebab case has as many segments as before. For ASCII texts a second pass changes nothing,
neither of a text nor of a name. -/
theorem hyphenated_kebab (s : String) :
    Hyphenated (kebab s).toList ∧
      (kebab s).toList.filter (· ≠ '-') = (s.toList.filter isAlphanumeric).flatMap lower ∧
      ((flagName s).toList.splitOn '.').length = (s.toList.splitOn '.').length ∧
      ((∀ c ∈ s.toList, c.toNat < 128) →
        kebab (kebab s) = kebab s ∧ flagName (flagName s) = flagName s) := by
  refine ⟨?_, ?_, by rw [splitOn_flagName, List.length_map], fun hascii =>
    ⟨?_, flagName_flagName hascii⟩⟩
  · rw [kebab, String.toList_ofList]
    exact hyphenated_kebabChars _
  · rw [kebab, String.toList_ofList]
    exact filter_kebabChars _
  · rw [kebab, kebab, String.toList_ofList, kebabChars_kebabChars hascii]

/-- Acronyms, an apostrophe, an underscore and a dot. -/
theorem hyphenated_kebab_serverName :
    kebab "HTTPServer's_nodeID.v2" = "http-servers-node-id-v2" ∧
      flagName "HTTPServer's_nodeID.v2" = "http-servers-node-id.v2" ∧
      (∀ c ∈ "HTTPServer's_nodeID.v2".toList, c.toNat < 128) ∧
      Hyphenated (kebab "HTTPServer's_nodeID.v2").toList ∧
      (kebab "HTTPServer's_nodeID.v2").toList.filter (· ≠ '-') =
        ("HTTPServer's_nodeID.v2".toList.filter isAlphanumeric).flatMap lower ∧
      ((flagName "HTTPServer's_nodeID.v2").toList.splitOn '.').length =
        ("HTTPServer's_nodeID.v2".toList.splitOn '.').length ∧
      kebab (kebab "HTTPServer's_nodeID.v2") = kebab "HTTPServer's_nodeID.v2" ∧
      flagName (flagName "HTTPServer's_nodeID.v2") = flagName "HTTPServer's_nodeID.v2" := by
  have hascii : ∀ c ∈ "HTTPServer's_nodeID.v2".toList, c.toNat < 128 := by
    have hall : "HTTPServer's_nodeID.v2".toList.all (·.toNat < 128) := by decide
    simpa only [List.all_eq_true, decide_eq_true_eq] using hall
  obtain ⟨hshape, hletters, hsegments, hagain⟩ := hyphenated_kebab "HTTPServer's_nodeID.v2"
  exact ⟨by decide +kernel, by decide +kernel, hascii, hshape, hletters, hsegments, hagain hascii⟩

end ApiCommand.Text
