import ApiCommand.Dict

/-!
# Dictionary lemmas

Looking up a key sees the last value stored under it, whether the entries are in order or not.
Entries in order are more: a key then has one entry, so that looking up and membership agree, and
storing the entries one after another gives the same list again (`ofList_of_sorted`).
-/

universe u v

namespace ApiCommand.Dict

variable {α : Type u}

/-! ## Looking up -/

@[simp]
theorem get?_nil (key : String) : get? ([] : Dict α) key = none := rfl

@[simp]
theorem get?_cons (e : String × α) (d : Dict α) (key : String) :
    get? (e :: d) key = if e.1 = key then some e.2 else get? d key := rfl

/-- The last value stored under a key is found there, and other keys are not touched. -/
theorem get?_insert (d : Dict α) (key other : String) (v : α) :
    get? (insert d key v) other = if key = other then some v else get? d other := by
  induction d with
  | nil => rfl
  | cons e d ih =>
    simp only [insert]
    split
    next heq => by_cases h : key = other <;> simp [heq, h]
    next hne =>
      split
      next => rfl
      next =>
        rw [get?_cons, get?_cons, ih]
        by_cases h : key = other
        · subst h; simp [hne]
        · simp [h]

/-- Of two values stored under one key the later replaces the other. -/
theorem insert_insert (d : Dict α) (key : String) (first second : α) :
    insert (insert d key first) key second = insert d key second := by
  induction d with
  | nil => simp [insert]
  | cons e d ih =>
    simp only [insert]
    split
    next => simp [insert]
    next hne =>
      split
      next => simp [insert]
      next hnlt => rw [insert, if_neg hne, if_neg hnlt, ih]

/-- A value that is found is the value of an entry. -/
theorem mem_of_get?_eq_some {d : Dict α} {key : String} {v : α} (h : get? d key = some v) :
    (key, v) ∈ d := by
  induction d with
  | nil => cases h
  | cons e d ih =>
    rw [get?_cons] at h
    split at h
    next heq =>
      cases h
      rw [← heq]
      exact List.mem_cons_self
    next => exact List.mem_cons_of_mem _ (ih h)

/-- A dictionary contains the key of each of its entries. -/
theorem contains_of_mem {d : Dict α} {e : String × α} (h : e ∈ d) : contains d e.1 := by
  induction d with
  | nil => cases h
  | cons e' d ih =>
    rw [contains, get?_cons]
    split
    next => rfl
    next hne =>
      rcases List.mem_cons.mp h with rfl | hmem
      · exact absurd rfl hne
      · exact ih hmem

/-- A key that a dictionary contains is the key of an entry. -/
theorem exists_mem_of_contains {d : Dict α} {key : String} (h : contains d key) :
    ∃ v, (key, v) ∈ d := by
  obtain ⟨v, hv⟩ := Option.isSome_iff_exists.mp h
  exact ⟨v, mem_of_get?_eq_some hv⟩

/-- Storing a value adds its key and no other. -/
theorem contains_insert (d : Dict α) (key other : String) (v : α) :
    contains (insert d key v) other = (key == other || contains d other) := by
  rw [contains, get?_insert]
  by_cases h : key = other <;> simp [h, contains]

theorem contains_iff_exists_mem {d : Dict α} {key : String} :
    contains d key ↔ ∃ v, (key, v) ∈ d :=
  ⟨exists_mem_of_contains, fun ⟨_, h⟩ => contains_of_mem h⟩

theorem get?_eq_none_iff {d : Dict α} {key : String} : get? d key = none ↔ ¬contains d key := by
  simp [contains]

/-- Storing a value under a key that is taken does nothing. -/
theorem get?_insertNew (d : Dict α) (key other : String) (v : α) :
    get? (insertNew d key v) other = (get? d other).or (if key = other then some v else none) := by
  unfold insertNew contains
  by_cases heq : key = other
  · subst heq
    cases hget : get? d key with
    | none => simp [get?_insert]
    | some v' => simp [hget]
  · split <;> simp [get?_insert, heq]

/-- Of two lists of entries, the second counts for keys that the first does not have. -/
theorem get?_append (d other : Dict α) (key : String) :
    get? (d ++ other) key = (get? d key).or (get? other key) := by
  induction d with
  | nil => rfl
  | cons e d ih =>
    rw [List.cons_append, get?_cons, get?_cons, ih]
    split <;> rfl

/-- If all entries with a key have one value, then this is what is found, whatever their order. -/
theorem get?_eq_of_forall_mem_iff {d : Dict α} {key : String} {o : Option α}
    (h : ∀ v, (key, v) ∈ d ↔ o = some v) : get? d key = o := by
  cases hget : get? d key with
  | some v => exact ((h v).mp (mem_of_get?_eq_some hget)).symm
  | none =>
    cases o with
    | none => rfl
    | some v => exact absurd (contains_of_mem ((h v).mpr rfl)) (get?_eq_none_iff.mp hget)

/-- Entries that are stored one after another count before those that were there, and of two with
one key the later. -/
theorem get?_extend (d other : Dict α) (key : String) :
    get? (extend d other) key = (get? other.reverse key).or (get? d key) := by
  induction other generalizing d with
  | nil => rfl
  | cons e other ih =>
    show get? (extend (insert d e.1 e.2) other) key = _
    rw [ih, get?_insert, List.reverse_cons, get?_append, get?_cons, Option.or_assoc]
    split <;> rfl

/-- The value of a key in the dictionary of a list of entries is that of the last entry with it. -/
theorem get?_ofList (entries : List (String × α)) (key : String) :
    get? (ofList entries) key = get? entries.reverse key := by
  show get? (extend [] entries) key = _
  rw [get?_extend, get?_nil, Option.or_none]

/-- An entry is found under its key if all entries with this key have its value. -/
theorem get?_ofList_eq_some {entries : List (String × α)} {key : String} {v : α}
    (hmem : (key, v) ∈ entries) (h : ∀ v', (key, v') ∈ entries → v' = v) :
    get? (ofList entries) key = some v := by
  rw [get?_ofList]
  refine get?_eq_of_forall_mem_iff fun v' => ?_
  rw [List.mem_reverse, Option.some.injEq]
  constructor
  · exact fun hv' => (h v' hv').symm
  · rintro rfl
    exact hmem

theorem contains_reverse (d : Dict α) (key : String) : contains d.reverse key = contains d key := by
  rw [Bool.eq_iff_iff, contains_iff_exists_mem, contains_iff_exists_mem]
  simp

/-- A dictionary that is extended contains its own keys and the new ones. -/
theorem contains_extend (d other : Dict α) (key : String) :
    contains (extend d other) key = (contains other key || contains d key) := by
  rw [← contains_reverse other, contains, get?_extend, Option.isSome_or]
  rfl

/-- Keeping the entries with certain keys keeps the values of these. -/
theorem get?_filter (d : Dict α) (p : String → Bool) (key : String) :
    get? (d.filter fun e => p e.1) key = if p key then get? d key else none := by
  induction d with
  | nil => simp
  | cons e d ih =>
    rw [List.filter_cons, get?_cons]
    by_cases heq : e.1 = key
    · subst heq
      by_cases hkept : p e.1 <;> simp [hkept, ih]
    · by_cases hkept : p e.1 <;> simp [hkept, ih, heq]

/-- Changing the values changes what is found under each key. -/
theorem get?_mapValues {β : Type v} (f : α → β) (d : Dict α) (key : String) :
    get? (mapValues f d) key = (get? d key).map f := by
  induction d with
  | nil => rfl
  | cons e d ih =>
    show get? ((e.1, f e.2) :: mapValues f d) key = _
    rw [get?_cons, get?_cons, ih]
    split <;> rfl

theorem mapValues_id (d : Dict α) : mapValues id d = d := List.map_id d

/-- Only the empty dictionary has nothing to find. -/
theorem eq_nil_iff {d : Dict α} : d = [] ↔ ∀ key, get? d key = none := by
  constructor
  · rintro rfl key
    rfl
  · intro h
    cases d with
    | nil => rfl
    | cons e d =>
      have hnone := h e.1
      rw [get?_cons, if_pos rfl] at hnone
      cases hnone

/-! ## Entries in order -/

theorem sorted_nil : Sorted ([] : Dict α) := List.Pairwise.nil

/-- A sorted dictionary has the least key first, and the rest is sorted, too. -/
theorem sorted_cons {e : String × α} {d : Dict α} :
    Sorted (e :: d) ↔ (∀ e' ∈ d, e.1 < e'.1) ∧ Sorted d := List.pairwise_cons

/-- The entries after storing a value are that one and some of those before. -/
theorem eq_or_mem_of_mem_insert {d : Dict α} {key : String} {v : α} {e : String × α}
    (h : e ∈ insert d key v) : e = (key, v) ∨ e ∈ d := by
  induction d with
  | nil => exact Or.inl (List.mem_singleton.mp h)
  | cons e' d ih =>
    simp only [insert] at h
    split at h
    next => exact (List.mem_cons.mp h).imp_right (List.mem_cons_of_mem _)
    next =>
      split at h
      next => exact List.mem_cons.mp h
      next =>
        rcases List.mem_cons.mp h with rfl | hmem
        · exact Or.inr List.mem_cons_self
        · exact (ih hmem).imp_right (List.mem_cons_of_mem _)

/-- Storing a value keeps the entries in order. -/
theorem Sorted.insert {d : Dict α} (h : Sorted d) (key : String) (v : α) :
    Sorted (insert d key v) := by
  induction d with
  | nil => exact List.pairwise_singleton _ _
  | cons e d ih =>
    obtain ⟨hhead, htail⟩ := sorted_cons.mp h
    simp only [Dict.insert]
    split
    next heq => exact sorted_cons.mpr ⟨fun e' he' => heq ▸ hhead e' he', htail⟩
    next hne =>
      split
      next hlt =>
        refine sorted_cons.mpr ⟨fun e' he' => ?_, h⟩
        rcases List.mem_cons.mp he' with rfl | hmem
        · exact hlt
        · exact String.lt_trans hlt (hhead e' hmem)
      next hnlt =>
        -- The order is total, so the key belongs behind the first entry.
        have hgt : e.1 < key := by
          rcases Std.lt_trichotomy e.1 key with hlt | heq | hgt
          · exact hlt
          · exact absurd heq hne
          · exact absurd hgt hnlt
        refine sorted_cons.mpr ⟨fun e' he' => ?_, ih htail⟩
        rcases eq_or_mem_of_mem_insert he' with rfl | hmem
        · exact hgt
        · exact hhead e' hmem

theorem sorted_ofList (entries : List (String × α)) : Sorted (ofList entries) :=
  List.foldlRecOn _ _ sorted_nil fun _ h e _ => h.insert e.1 e.2

/-- No key occurs twice among entries in order. -/
theorem Sorted.nodup_keys {d : Dict α} (h : Sorted d) : (keys d).Nodup :=
  List.pairwise_map.mpr (h.imp Std.ne_of_lt)

theorem Sorted.mapValues {β : Type v} {d : Dict α} (h : Sorted d) (f : α → β) :
    Sorted (mapValues f d) :=
  List.pairwise_map.mpr h

theorem Sorted.nodup {d : Dict α} (h : Sorted d) : d.Nodup :=
  List.Pairwise.imp (fun hlt heq => Std.ne_of_lt hlt (congrArg Prod.fst heq)) h

/-- Among entries in order, the value of an entry is the one that is found under its key. -/
theorem get?_eq_some_iff {d : Dict α} (h : Sorted d) {key : String} {v : α} :
    get? d key = some v ↔ (key, v) ∈ d := by
  refine ⟨mem_of_get?_eq_some, fun hmem => ?_⟩
  induction d with
  | nil => cases hmem
  | cons e d ih =>
    obtain ⟨hhead, htail⟩ := sorted_cons.mp h
    rw [get?_cons]
    rcases List.mem_cons.mp hmem with rfl | hmem
    · simp
    · have hne : e.1 ≠ key := (Std.ne_of_lt (hhead (key, v) hmem))
      rw [if_neg hne]
      exact ih htail hmem

/-- Dictionaries in order with the same values under all keys are the same. -/
theorem Sorted.ext {d d' : Dict α} (h : Sorted d) (h' : Sorted d')
    (hget : ∀ key, get? d key = get? d' key) : d = d' := by
  have hmem : ∀ e, e ∈ d ↔ e ∈ d' := by
    rintro ⟨key, v⟩
    rw [← get?_eq_some_iff h, hget, get?_eq_some_iff h']
  have hperm : d.Perm d' :=
    (List.perm_ext_iff_of_nodup h.nodup h'.nodup).mpr hmem
  exact hperm.eq_of_pairwise (fun a b _ _ hlt hgt => absurd hgt (String.lt_asymm hlt)) h h'

/-- Entries that are added later extend the dictionary of the earlier ones. -/
theorem ofList_append (entries more : List (String × α)) :
    ofList (entries ++ more) = extend (ofList entries) more := List.foldl_append

/-- The dictionary of a list of entries has no others. -/
theorem mem_of_mem_ofList {entries : List (String × α)} {e : String × α} (h : e ∈ ofList entries) :
    e ∈ entries := by
  have hget := (get?_eq_some_iff (sorted_ofList entries)).mpr h
  rw [get?_ofList] at hget
  exact List.mem_reverse.mp (mem_of_get?_eq_some hget)

/-- The dictionary of a list of entries has all their keys. -/
theorem contains_ofList {entries : List (String × α)} {e : String × α} (h : e ∈ entries) :
    contains (ofList entries) e.1 := by
  have hextend := contains_extend [] entries e.1
  rw [contains_of_mem h, Bool.true_or] at hextend
  exact hextend

/-- A key above all others is stored at the end. -/
theorem insert_eq_append {d : Dict α} {key : String} (h : ∀ e ∈ d, e.1 < key) (v : α) :
    insert d key v = d ++ [(key, v)] := by
  induction d with
  | nil => rfl
  | cons e d ih =>
    have hlt : e.1 < key := h e List.mem_cons_self
    have hne : e.1 ≠ key := fun heq => String.lt_irrefl key (heq ▸ hlt)
    simp only [insert, if_neg hne, if_neg (String.lt_asymm hlt)]
    rw [ih fun e' he' => h e' (List.mem_cons_of_mem _ he'), List.cons_append]

/-- Entries in order that all belong behind a dictionary are stored at its end. -/
theorem extend_eq_append {d other : Dict α} (h : Sorted (d ++ other)) :
    extend d other = d ++ other := by
  induction other generalizing d with
  | nil => simp [extend]
  | cons e other ih =>
    have hlt : ∀ e' ∈ d, e'.1 < e.1 := fun e' he' =>
      (List.pairwise_append.mp h).2.2 e' he' e List.mem_cons_self
    have hstep : extend d (e :: other) = extend (d ++ [e]) other := by
      rw [← insert_eq_append hlt e.2]; rfl
    rw [hstep, ih (by simpa using h), List.append_assoc, List.singleton_append]

/-- Entries in order are the dictionary that they make. -/
theorem ofList_of_sorted {d : Dict α} (h : Sorted d) : ofList d = d :=
  extend_eq_append (by simpa using h)

end ApiCommand.Dict
