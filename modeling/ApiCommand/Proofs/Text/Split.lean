import ApiCommand.Text.Split

/-!
# Texts cut where they were put together

A text is cut at the first separator (`cut_append`) or at all of them (`pieces_intercalate`), so
what was put together from parts without the separator is taken apart into these. A pattern is
replaced from the front of a text to its end (`replace_append_of_ne_nil`,
`replace_append_of_notMem`), which brings no characters in but those of the image
(`notMem_replace`).
-/

namespace ApiCommand.Text

variable {sep : Char}

/-- What stands in front of a separator that does not occur in it is cut off. -/
theorem cut_append {cs : List Char} (h : sep ∉ cs) (rest : List Char) :
    cut sep (cs ++ sep :: rest) = some (cs, rest) := by
  induction cs with
  | nil => rw [List.nil_append, cut, if_pos rfl]
  | cons c cs ih =>
    have hne : c ≠ sep := (List.ne_of_not_mem_cons h).symm
    rw [List.cons_append, cut, if_neg hne, ih (List.not_mem_of_not_mem_cons h), Option.map_some]

/-- A text without the separator cannot be cut. -/
theorem cut_eq_none_iff {cs : List Char} : cut sep cs = none ↔ sep ∉ cs := by
  induction cs with
  | nil => simp [cut]
  | cons c cs ih =>
    rw [cut]
    split
    next heq => simp [heq]
    next hne => simp [ih, Ne.symm hne]

/-- A text is cut into what stands in front of the first separator and what stands behind it. -/
theorem cut_eq_some_iff {cs start rest : List Char} :
    cut sep cs = some (start, rest) ↔ cs = start ++ sep :: rest ∧ sep ∉ start := by
  constructor
  · intro h
    induction cs generalizing start with
    | nil => cases h
    | cons c cs ih =>
      rw [cut] at h
      split at h
      next heq =>
        cases h
        exact ⟨by rw [heq, List.nil_append], List.not_mem_nil⟩
      next hne =>
        obtain ⟨⟨start', rest'⟩, hcut, hparts⟩ := Option.map_eq_some_iff.mp h
        cases hparts
        obtain ⟨rfl, hstart⟩ := ih hcut
        exact ⟨rfl, List.not_mem_cons_of_ne_of_not_mem (Ne.symm hne) hstart⟩
  · rintro ⟨rfl, hstart⟩
    exact cut_append hstart rest

/-- A text is cut at the first separator. -/
theorem cutText_append {s : String} (h : sep ∉ s.toList) (rest : String) :
    cutText sep (s ++ String.singleton sep ++ rest) = some (s, rest) := by
  rw [cutText, String.append_assoc, String.toList_append, String.toList_append,
    String.toList_singleton, List.singleton_append, cut_append h]
  simp

theorem cutText_eq_none_iff {s : String} : cutText sep s = none ↔ sep ∉ s.toList := by
  rw [cutText, Option.map_eq_none_iff, cut_eq_none_iff]

theorem after?_append (start cs : List Char) : after? start (start ++ cs) = some cs := by
  induction start with
  | nil => cases cs <;> rfl
  | cons c start ih => rw [List.cons_append, after?, if_pos rfl, ih]

/-- What is behind a start is found if the text has this start. -/
theorem after?_eq_some_iff {start cs rest : List Char} :
    after? start cs = some rest ↔ cs = start ++ rest := by
  constructor
  · intro h
    fun_induction after? start cs with
    | case1 cs => exact Option.some.inj h
    | case2 start c cs ih => rw [ih h, List.cons_append]
    | case3 => cases h
    | case4 => cases h
  · rintro rfl
    exact after?_append start rest

/-- Of two characters in a text, one is the other one or stands behind it. -/
theorem eq_or_append_of_append_cons_eq {xs ys rest rest' : List Char} {c d : Char}
    (h : xs ++ c :: rest = ys ++ d :: rest') :
    xs = ys ∨ (∃ between, ys = xs ++ c :: between ∧ rest = between ++ d :: rest') ∨
      ∃ between, xs = ys ++ d :: between ∧ rest' = between ++ c :: rest := by
  obtain ⟨between, hys, hrest⟩ | ⟨between, hxs, hrest⟩ := List.append_eq_append_iff.mp h
  · cases between with
    | nil => exact .inl (by simpa using hys.symm)
    | cons x between =>
      obtain ⟨rfl, htail⟩ := List.cons.inj hrest
      exact .inr (.inl ⟨between, hys, htail⟩)
  · cases between with
    | nil => exact .inl (by simpa using hxs)
    | cons x between =>
      obtain ⟨rfl, htail⟩ := List.cons.inj hrest
      exact .inr (.inr ⟨between, hxs, htail⟩)

/-- Texts without the separator that are joined by it are its pieces again. -/
theorem pieces_intercalate {texts : List String} (hne : texts ≠ [])
    (h : ∀ text ∈ texts, sep ∉ text.toList) :
    pieces sep (String.intercalate (String.singleton sep) texts) = texts := by
  have hmap : ∀ cs ∈ texts.map String.toList, sep ∉ cs := by
    simpa using h
  rw [pieces, String.toList_intercalate, String.toList_singleton,
    List.splitOn_intercalate sep hmap (by simpa using hne)]
  simp

/-- A character other than the separator is in one of the pieces. -/
theorem exists_mem_splitOn {c : Char} {cs : List Char} (hc : c ∈ cs) (hsep : c ≠ sep) :
    ∃ piece ∈ cs.splitOn sep, c ∈ piece := by
  induction cs with
  | nil => cases hc
  | cons d cs ih =>
    rw [List.splitOn_cons_eq_if_modifyHead]
    split
    next heq =>
      have hne : c ≠ d := fun hcd => hsep (hcd.trans (by simpa using heq))
      obtain ⟨piece, hpiece, hmem⟩ := ih ((List.mem_cons.mp hc).resolve_left hne)
      exact ⟨piece, List.mem_cons_of_mem _ hpiece, hmem⟩
    -- Any other character goes to the first of the pieces behind it.
    next =>
      obtain ⟨first, rest, hsplit⟩ := List.exists_cons_of_ne_nil (List.splitOn_ne_nil sep cs)
      rw [hsplit, List.modifyHead_cons]
      rcases List.mem_cons.mp hc with rfl | hcs
      · exact ⟨_, List.mem_cons_self, List.mem_cons_self⟩
      · obtain ⟨piece, hpiece, hmem⟩ := ih hcs
        rw [hsplit] at hpiece
        rcases List.mem_cons.mp hpiece with rfl | hrest
        · exact ⟨_, List.mem_cons_self, List.mem_cons_of_mem _ hmem⟩
        · exact ⟨piece, List.mem_cons_of_mem _ hrest, hmem⟩

/-- The pieces are parts of the text and do not have the separator in them. -/
theorem sublist_of_mem_splitOn {piece cs : List Char} (h : piece ∈ cs.splitOn sep) :
    piece.Sublist cs ∧ sep ∉ piece := by
  induction cs generalizing piece with
  | nil =>
    rw [List.splitOn_nil, List.mem_singleton] at h
    subst h
    exact ⟨List.Sublist.refl _, List.not_mem_nil⟩
  | cons d cs ih =>
    rw [List.splitOn_cons_eq_if_modifyHead] at h
    split at h
    -- At a separator, an empty piece comes in front of the others.
    next =>
      rcases List.mem_cons.mp h with rfl | hrest
      · exact ⟨List.nil_sublist _, List.not_mem_nil⟩
      · exact ⟨(ih hrest).1.cons d, (ih hrest).2⟩
    next hne =>
      -- Any other character goes to the first piece.
      obtain ⟨first, rest, hsplit⟩ := List.exists_cons_of_ne_nil (List.splitOn_ne_nil sep cs)
      rw [hsplit, List.modifyHead_cons] at h
      rw [hsplit] at ih
      rcases List.mem_cons.mp h with rfl | hrest
      · obtain ⟨hsublist, hsep⟩ := ih List.mem_cons_self
        exact ⟨hsublist.cons_cons d,
          List.not_mem_cons_of_ne_of_not_mem (fun heq => hne (by simp [heq])) hsep⟩
      · obtain ⟨hsublist, hsep⟩ := ih (List.mem_cons_of_mem _ hrest)
        exact ⟨hsublist.cons d, hsep⟩

/-! ## Replacing -/

section Replace

variable {part image : List Char}

/-- The characters of an occurrence that was replaced are passed over. -/
theorem replaceFrom_length_append (cs rest : List Char) :
    replace.replaceFrom part image cs.length (cs ++ rest) = replace part image rest := by
  induction cs with
  | nil => rfl
  | cons c cs ih => rw [List.length_cons, List.cons_append, replace.replaceFrom, ih]

/-- Where the part does not begin, a character is kept. -/
theorem replace_cons_of_not_isPrefix {c : Char} {cs : List Char} (h : ¬part <+: c :: cs) :
    replace part image (c :: cs) = c :: replace part image cs := by
  rw [replace, replace.replaceFrom, if_neg (by simpa using h)]
  rfl

/-- An occurrence at the start is replaced. -/
theorem replace_append_of_ne_nil (hpart : part ≠ []) (rest : List Char) :
    replace part image (part ++ rest) = image ++ replace part image rest := by
  cases part with
  | nil => exact absurd rfl hpart
  | cons c part =>
    rw [List.cons_append, replace, replace.replaceFrom, if_pos (by simp), List.length_cons,
      Nat.add_sub_cancel, replaceFrom_length_append]

/-- Nothing is replaced where the first character of the part does not occur. -/
theorem replace_append_of_notMem {c : Char} {cs : List Char} (h : c ∉ cs) (rest : List Char) :
    replace (c :: part) image (cs ++ rest) = cs ++ replace (c :: part) image rest := by
  induction cs with
  | nil => rfl
  | cons d cs ih =>
    have hprefix : ¬(c :: part) <+: d :: (cs ++ rest) := fun hprefix =>
      List.ne_of_not_mem_cons h (List.cons_prefix_cons.mp hprefix).1
    rw [List.cons_append, replace_cons_of_not_isPrefix hprefix, ih (List.not_mem_of_not_mem_cons h),
      List.cons_append]

end Replace

/-- A character that is neither in a text nor in what replaces parts of it is not in the result. -/
theorem notMem_replace {c : Char} {part image cs : List Char} (himage : c ∉ image) (h : c ∉ cs) :
    c ∉ replace part image cs := by
  suffices hfrom : ∀ skip, c ∉ replace.replaceFrom part image skip cs from hfrom 0
  intro skip
  fun_induction replace.replaceFrom part image skip cs with
  | case1 => exact h
  | case2 skip d rest ih => exact ih (List.not_mem_of_not_mem_cons h)
  | case3 d rest hpart ih =>
    rw [List.mem_append, not_or]
    exact ⟨himage, ih (List.not_mem_of_not_mem_cons h)⟩
  | case4 d rest hpart ih =>
    rw [List.mem_cons, not_or]
    exact ⟨List.ne_of_not_mem_cons h, ih (List.not_mem_of_not_mem_cons h)⟩

end ApiCommand.Text
