import ApiCommand.Json.Decode
import ApiCommand.Proofs.Dict

/-!
# Members of records

What the member of a record stands for, if the record is read from JSON: a value that may be absent
or null (`Json.Optional`), a value with a default (`Json.Defaulted`), or a dictionary
(`Json.ObjectOf`). Each has the relation between JSON and what stands in the record as a parameter.
It depends on the relation monotonically, and it is unique if the relation is.
-/

namespace ApiCommand.Json

/-! ## Values, defaults and dictionaries -/

section Members

variable {α : Type} {R R' : Json → α → Prop} {o : Option Json}

/-- A member that may be absent or null, either of which stands for no value. -/
inductive Optional (R : Json → α → Prop) : Option Json → Option α → Prop
  | absent : Optional R none none
  | null : Optional R (some null) none
  | value {v : Json} {a : α} (hnull : v ≠ null) (h : R v a) : Optional R (some v) (some a)

/-- A member that may be absent, which stands for a default. -/
inductive Defaulted (R : Json → α → Prop) (default : α) : Option Json → α → Prop
  | absent : Defaulted R default none default
  | value {v : Json} {a : α} (h : R v a) : Defaulted R default (some v) a

/-- An object with one member for each entry of a dictionary, under the same key. -/
inductive ObjectOf (R : Json → α → Prop) : Json → Dict α → Prop
  | object {members : Dict Json} {d : Dict α} (hsorted : Dict.Sorted d)
      (hentries : ∀ key, Option.Rel R (Dict.get? members key) (Dict.get? d key)) :
      ObjectOf R (object members) d

/-- What an optional member stands for can be read in a weaker sense. -/
theorem Optional.imp {a : Option α} (h : Optional R o a)
    (himp : ∀ v b, o = some v → R v b → R' v b) : Optional R' o a := by
  cases h with
  | absent => exact .absent
  | null => exact .null
  | value hnull h => exact .value hnull (himp _ _ rfl h)

/-- What a member with a default stands for can be read in a weaker sense. -/
theorem Defaulted.imp {default a : α} (h : Defaulted R default o a)
    (himp : ∀ v b, o = some v → R v b → R' v b) : Defaulted R' default o a := by
  cases h with
  | absent => exact .absent
  | value h => exact .value (himp _ _ rfl h)

theorem ObjectOf.sorted {v : Json} {d : Dict α} (h : ObjectOf R v d) : Dict.Sorted d := by
  cases h with
  | object hsorted => exact hsorted

/-- Each member stands for the entry under its key. -/
theorem ObjectOf.exists_entry {members : Dict Json} {d : Dict α} {key : String} {v : Json}
    (h : ObjectOf R (Json.object members) d) (hv : Dict.get? members key = some v) :
    ∃ a, Dict.get? d key = some a ∧ R v a := by
  cases h with
  | object _ hentries =>
    have hentry := hentries key
    rw [hv] at hentry
    generalize Dict.get? d key = x at hentry ⊢
    cases hentry with
    | some ha => exact ⟨_, rfl, ha⟩

/-- Each entry has a member that stands for it. -/
theorem ObjectOf.exists_member {members : Dict Json} {d : Dict α} {key : String} {a : α}
    (h : ObjectOf R (Json.object members) d) (ha : Dict.get? d key = some a) :
    ∃ v, Dict.get? members key = some v ∧ R v a := by
  cases h with
  | object _ hentries =>
    have hentry := hentries key
    rw [ha] at hentry
    generalize Dict.get? members key = x at hentry ⊢
    cases hentry with
    | some hv => exact ⟨_, rfl, hv⟩

/-- Related values stay related when one side is mapped. -/
theorem rel_map {β : Type} {S : Json → β → Prop} {f : α → β} {a : Option α}
    (h : Option.Rel R o a) (himp : ∀ v b, o = some v → R v b → S v (f b)) :
    Option.Rel S o (a.map f) := by
  cases h with
  | none => exact .none
  | some h => exact .some (himp _ _ rfl h)

/-- The values of a dictionary may be changed if the members then stand for the new ones. -/
theorem ObjectOf.mapValues {β : Type} {S : Json → β → Prop} {f : α → β} {members : Dict Json}
    {d : Dict α} (h : ObjectOf R (Json.object members) d)
    (himp : ∀ key v b, Dict.get? members key = some v → R v b → S v (f b)) :
    ObjectOf S (Json.object members) (Dict.mapValues f d) := by
  cases h with
  | object hsorted hentries =>
    refine .object (hsorted.mapValues f) fun key => ?_
    rw [Dict.get?_mapValues]
    exact rel_map (hentries key) (himp key)

/-- What an object stands for can be read in a weaker sense, key by key. -/
theorem ObjectOf.imp {members : Dict Json} {d : Dict α} (h : ObjectOf R (Json.object members) d)
    (himp : ∀ key v b, Dict.get? members key = some v → R v b → R' v b) :
    ObjectOf R' (Json.object members) d := by
  have hsame := @ObjectOf.mapValues α R α R' id members d h himp
  rwa [Dict.mapValues_id] at hsame

/-- The object is empty exactly if the dictionary is. -/
theorem ObjectOf.eq_nil_iff {members : Dict Json} {d : Dict α}
    (h : ObjectOf R (Json.object members) d) : members = [] ↔ d = [] := by
  cases h with
  | object _ hentries =>
    rw [Dict.eq_nil_iff, Dict.eq_nil_iff]
    refine forall_congr' fun key => ?_
    have hentry := hentries key
    generalize Dict.get? members key = x at hentry ⊢
    generalize Dict.get? d key = y at hentry ⊢
    cases hentry <;> simp

/-- An optional member stands for one value at most. -/
theorem Optional.unique {a b : Option α} (h : Optional R o a) (h' : Optional R' o b)
    (hunique : ∀ v x y, R v x → R' v y → x = y) : a = b := by
  cases h with
  | absent => cases h'; rfl
  | null =>
    cases h' with
    | null => rfl
    | value hnull => exact absurd rfl hnull
  | value hnull h =>
    cases h' with
    | null => exact absurd rfl hnull
    | value _ h' => rw [hunique _ _ _ h h']

/-- A member with a default stands for one value. -/
theorem Defaulted.unique {default a b : α} (h : Defaulted R default o a)
    (h' : Defaulted R' default o b) (hunique : ∀ v x y, R v x → R' v y → x = y) : a = b := by
  cases h with
  | absent => cases h'; rfl
  | value h =>
    cases h' with
    | value h' => exact hunique _ _ _ h h'

/-- Of what a member is related to, there is one at most. -/
theorem rel_unique {a b : Option α} (h : Option.Rel R o a) (h' : Option.Rel R' o b)
    (hunique : ∀ v x y, R v x → R' v y → x = y) : a = b := by
  cases h with
  | none => cases h'; rfl
  | some h =>
    cases h' with
    | some h' => rw [hunique _ _ _ h h']

/-- An object stands for one dictionary at most. -/
theorem ObjectOf.unique {v : Json} {a b : Dict α} (h : ObjectOf R v a) (h' : ObjectOf R' v b)
    (hunique : ∀ v x y, R v x → R' v y → x = y) : a = b := by
  cases h with
  | object hsorted hentries =>
    cases h' with
    | object hsorted' hentries' =>
      refine hsorted.ext hsorted' fun key => ?_
      exact rel_unique (hentries key) (hentries' key) hunique

/-! ## Members of what is written -/

/-- A list that is written unless it is empty has the empty one as its default. -/
theorem Defaulted.unless_isEmpty {β : Type} {S : Json → List β → Prop} {items : List β} {w : Json}
    (h : items ≠ [] → S w items) :
    Defaulted S [] (if items.isEmpty then none else some w) items := by
  cases items with
  | nil => exact .absent
  | cons => exact .value (h (by simp))

/-- A value that is never written as null can be left out for none. -/
theorem Optional.of_map {a : Option α} {write : α → Json} (hnull : ∀ b, write b ≠ Json.null)
    (h : ∀ b, a = some b → R (write b) b) : Optional R (a.map write) a := by
  cases a with
  | none => exact .absent
  | some b => exact .value (hnull b) (h b rfl)

/-- A value that was read is not null. -/
theorem Optional.self {value : Option Json} (h : Optional (· = ·) o value) :
    Optional (· = ·) value value := by
  cases h with
  | absent => exact .absent
  | null => exact .absent
  | value hnull heq =>
    subst heq
    exact .value hnull rfl

/-- A text that may be absent is written as it is. -/
theorem Optional.map_string {text : Option String} (h : Optional (· = string ·) o text) :
    Optional (· = ·) o (text.map string) := by
  cases h with
  | absent => exact .absent
  | null => exact .null
  | value hnull h => exact .value hnull h

end Members

/-! ## Values of one kind -/

theorem strings_inj {texts texts' : List String} (h : strings texts = strings texts') :
    texts = texts' :=
  (List.map_inj_right fun _ _ => string.inj).mp (array.inj h)

theorem asString?_eq_some_iff {v : Json} {text : String} :
    v.asString? = some text ↔ v = .string text := by
  cases v <;> simp [asString?]

theorem asArray?_eq_some_iff {v : Json} {items : List Json} :
    v.asArray? = some items ↔ v = .array items := by
  cases v <;> simp [asArray?]

theorem asBool?_eq_some_iff {v : Json} {b : Bool} : v.asBool? = some b ↔ v = .bool b := by
  cases v <;> simp [asBool?]

/-- All items are texts if the array is made of strings. -/
theorem mapM_asString?_eq_some_iff {items : List Json} {texts : List String} :
    items.mapM asString? = some texts ↔ items = texts.map .string := by
  induction items generalizing texts with
  | nil => cases texts <;> simp
  | cons item items ih =>
    simp only [List.mapM_cons, Option.bind_eq_bind, Option.bind_eq_some_iff, asString?_eq_some_iff,
      ih]
    cases texts with
    | nil => simp
    | cons text texts => simp

/-- A list of texts is an array of strings. -/
theorem texts?_eq_some_iff {v : Json} {texts : List String} :
    v.texts? = some texts ↔ v = .strings texts := by
  simp only [texts?, listOf?, Option.bind_eq_some_iff, asArray?_eq_some_iff,
    mapM_asString?_eq_some_iff, exists_eq_right]
  rfl

/-- Null is no value. -/
theorem notNull?_eq_iff {v : Json} {o : Option Json} :
    v.notNull? = o ↔ Optional (· = ·) (some v) o := by
  constructor
  · rintro rfl
    cases v <;> first | exact .null | exact .value (by simp) rfl
  · intro h
    cases h with
    | null => rfl
    | value hnull h =>
      subst h
      unfold notNull?
      split
      next => exact absurd rfl hnull
      next => rfl

end ApiCommand.Json
