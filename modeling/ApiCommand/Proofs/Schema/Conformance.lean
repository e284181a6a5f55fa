import ApiCommand.Proofs.Json.Place
import ApiCommand.Proofs.Json.PointerText
import ApiCommand.Proofs.Schema.Validation

/-!
# Conformance

What it means for a value to conform to a schema is a matter of the two alone, without places and
messages: `Schema.Conforms`. Validation finds no problem exactly if the value conforms
(`problems_eq_nil_iff_conforms`), and each problem that it finds is where it says it is. Its path
leads through the value to what is wrong, and through properties and items of the schema to what is
violated there (`located_problems`).
-/

namespace ApiCommand

namespace Json

/-- The members of every object in the value form a dictionary. -/
inductive Ordered : Json → Prop
  | leaf {v : Json} (hleaf : v.IsLeaf) : Ordered v
  | array {items : List Json} (hitems : ∀ item ∈ items, Ordered item) : Ordered (array items)
  | object {members : Dict Json} (hsorted : Dict.Sorted members)
      (hmembers : ∀ e ∈ members, Ordered e.2) : Ordered (object members)

/-- What is inside of an ordered value is ordered. -/
theorem Ordered.child? {v inner : Json} {step : Step} (h : v.Ordered)
    (hinner : v.child? step = some inner) : inner.Ordered := by
  cases h with
  | leaf hleaf => cases v <;> first | cases hinner | exact hleaf.elim
  | array hitems =>
    cases step with
    | member key => cases hinner
    | item index => exact hitems inner (List.mem_of_getElem? hinner)
  | object _ hmembers =>
    cases step with
    | member key => exact hmembers (key, inner) (Dict.mem_of_get?_eq_some hinner)
    | item index => cases hinner

end Json

namespace Schema

/-! ## What conforms -/

/-- The value is of the type with the name. A name that is not known stands for all values. -/
def OfType (name : String) (v : Json) : Prop :=
  match name with
  | "null" => v = .null
  | "boolean" => ∃ b, v = .bool b
  | "integer" => ∃ n, v = .number n ∧ n.isInteger
  | "number" => ∃ n, v = .number n
  | "string" => ∃ text, v = .string text
  | "array" => ∃ items, v = .array items
  | "object" => ∃ members, v = .object members
  | _ => True

/-- The schema is untyped, nullable or of the type of null. -/
def AllowsNull (s : Schema) : Prop := s.types = [] ∨ s.nullable = true ∨ "null" ∈ s.types

/-- The schema is untyped, or the value is of one of its types. -/
def AllowsType (s : Schema) (v : Json) : Prop := s.types = [] ∨ ∃ name ∈ s.types, OfType name v

/-- The schema enumerates no values, or the value is one of them. -/
def AllowsValue (s : Schema) (v : Json) : Prop :=
  s.enumValues = [] ∨ ∃ w ∈ s.enumValues, w.same v

/-- Properties that are not declared are refused. -/
def Closed (s : Schema) : Prop := s.additional = some (.bool false)

/-- The value conforms to the schema. -/
inductive Conforms : Schema → Json → Prop
  | null {s : Schema} (hnull : s.AllowsNull) : Conforms s .null
  | scalar {s : Schema} {v : Json} (hleaf : v.IsLeaf) (hnull : v ≠ .null) (htype : s.AllowsType v)
      (hvalue : s.AllowsValue v) : Conforms s v
  | array {s : Schema} {items : List Json} (htype : s.AllowsType (.array items))
      (hvalue : s.AllowsValue (.array items))
      (hitems : ∀ t, s.items = some t → ∀ item ∈ items, Conforms t item) :
      Conforms s (.array items)
  | object {s : Schema} {members : Dict Json} (htype : s.AllowsType (.object members))
      (hvalue : s.AllowsValue (.object members))
      (hrequired : ∀ name ∈ s.required, Dict.contains members name)
      (hdeclared : ∀ e ∈ members, ∀ t, s.property? e.1 = some t → Conforms t e.2)
      (hclosed : s.Closed → ∀ e ∈ members, ∃ t, s.property? e.1 = some t) :
      Conforms s (.object members)

/-- The value violates the schema in this way, not only in something inside of it. -/
inductive Violates (s : Schema) : Json → Violation → Prop
  | nullValue (hnull : ¬s.AllowsNull) : Violates s .null .nullValue
  | typeMismatch {v : Json} (hnull : v ≠ .null) (htype : ¬s.AllowsType v) :
      Violates s v (.typeMismatch s.types v.kind)
  | notAdmitted {v : Json} (hnull : v ≠ .null) (hvalue : ¬s.AllowsValue v) :
      Violates s v (.notAdmitted v s.enumValues)
  | missingProperty {members : Dict Json} {name : String} (hname : name ∈ s.required)
      (hmissing : ¬Dict.contains members name) :
      Violates s (.object members) (.missingProperty name)

/-- What violates a schema does not conform to it. -/
theorem Violates.not_conforms {s : Schema} {v : Json} {violation : Violation}
    (h : s.Violates v violation) : ¬s.Conforms v := by
  intro hconforms
  cases h with
  | nullValue hnull =>
    cases hconforms with
    | null h => exact hnull h
    | scalar _ h => exact h rfl
  | typeMismatch hnull htype => cases hconforms <;> contradiction
  | notAdmitted hnull hvalue => cases hconforms <;> contradiction
  | missingProperty hname hmissing =>
    cases hconforms with
    | scalar hleaf => exact hleaf
    | object _ _ hrequired => exact hmissing (hrequired _ hname)

/-! ## The checks -/

theorem isOfType_iff {name : String} {v : Json} : isOfType name v ↔ OfType name v := by
  unfold OfType
  split <;> cases v <;> simp_all [isOfType, Json.kind, Json.Kind.name]

theorem admitsNull_iff {s : Schema} : s.admitsNull ↔ s.AllowsNull := by
  simp [admitsNull, AllowsNull, hasType, or_assoc]

theorem admitsType_iff {s : Schema} {v : Json} : s.admitsType v ↔ s.AllowsType v := by
  simp [admitsType, AllowsType, isOfType_iff]

theorem admitsValue_iff {s : Schema} {v : Json} : s.admitsValue v ↔ s.AllowsValue v := by
  simp [admitsValue, AllowsValue]

theorem not_isOpen_iff {s : Schema} : ¬s.isOpen ↔ s.Closed := by
  unfold isOpen Closed
  split
  next h => simp [h]
  next h => simpa using h

/-! ## Conformance by cases -/

section Cases

variable {s : Schema}

/-- A null conforms if it is allowed. -/
theorem conforms_null_iff : s.Conforms .null ↔ s.AllowsNull := by
  refine ⟨fun h => ?_, .null⟩
  cases h with
  | null hnull => exact hnull
  | scalar _ hnull => exact absurd rfl hnull

/-- A value that is no container conforms if its type and the value itself are allowed. -/
theorem conforms_scalar_iff {v : Json} (hleaf : v.IsLeaf) (hnull : v ≠ .null) :
    s.Conforms v ↔ s.AllowsType v ∧ s.AllowsValue v := by
  refine ⟨fun h => ?_, fun ⟨htype, hvalue⟩ => .scalar hleaf hnull htype hvalue⟩
  cases h with
  | null => exact absurd rfl hnull
  | scalar _ _ htype hvalue => exact ⟨htype, hvalue⟩
  | array => exact hleaf.elim
  | object => exact hleaf.elim

/-- An array conforms if it is allowed and all of its items conform. -/
theorem conforms_array_iff {items : List Json} :
    s.Conforms (.array items) ↔ s.AllowsType (.array items) ∧ s.AllowsValue (.array items) ∧
      ∀ t, s.items = some t → ∀ item ∈ items, t.Conforms item := by
  refine ⟨fun h => ?_, fun ⟨htype, hvalue, hitems⟩ => .array htype hvalue hitems⟩
  cases h with
  | scalar hleaf => exact hleaf.elim
  | array htype hvalue hitems => exact ⟨htype, hvalue, hitems⟩

/-- An object conforms if it is allowed, has all required members, and each of its members conforms
to a property or may stand there without one. -/
theorem conforms_object_iff {members : Dict Json} :
    s.Conforms (.object members) ↔
      s.AllowsType (.object members) ∧ s.AllowsValue (.object members) ∧
        (∀ name ∈ s.required, Dict.contains members name) ∧
        (∀ e ∈ members, ∀ t, s.property? e.1 = some t → t.Conforms e.2) ∧
        (s.Closed → ∀ e ∈ members, ∃ t, s.property? e.1 = some t) := by
  refine ⟨fun h => ?_, fun ⟨htype, hvalue, hrequired, hdeclared, hclosed⟩ =>
    .object htype hvalue hrequired hdeclared hclosed⟩
  cases h with
  | scalar hleaf => exact hleaf.elim
  | object htype hvalue hrequired hdeclared hclosed =>
    exact ⟨htype, hvalue, hrequired, hdeclared, hclosed⟩

end Cases

/-! ## Problems by cases -/

/-- The problems of what is directly in a container that is itself of an admitted type. -/
def innerProblems (s : Schema) (v : Json) : List Problem :=
  match v with
  | .object members => s.missingProblems [] members ++ s.memberProblems [] members
  | .array items => (s.items.map fun t => t.itemProblems [] 0 items).getD []
  | _ => []

/-- A null has no other problem than being one. -/
theorem problems_null (s : Schema) :
    s.problems .null = if s.admitsNull then [] else [⟨[], .nullValue⟩] := by
  rw [problems, problemsAt]

/-- A value of a type that is not admitted has this one problem. -/
theorem problems_of_ne_null (s : Schema) {v : Json} (hnull : v ≠ .null) :
    s.problems v =
      if s.admitsType v then s.enumProblems [] v ++ s.innerProblems v
      else [⟨[], .typeMismatch s.types v.kind⟩] := by
  cases v with
  | null => exact absurd rfl hnull
  | object => simp [problems, problemsAt, innerProblems, Json.kind]
  | array =>
    rw [problems, problemsAt, innerProblems]
    cases s.items <;> rfl
  | _ => simp [problems, problemsAt, innerProblems]

/-- A value that is not enumerated is a problem, and no other one is. -/
theorem enumProblems_eq_nil_iff {s : Schema} {path : List String} {v : Json} :
    s.enumProblems path v = [] ↔ s.AllowsValue v := by
  rw [← admitsValue_iff, enumProblems]
  split <;> simp [*]

/-- A value other than null has no problems if neither itself nor what is in it has any. -/
theorem problems_eq_nil_iff (s : Schema) {v : Json} (hnull : v ≠ .null) :
    s.problems v = [] ↔ s.AllowsType v ∧ s.AllowsValue v ∧ s.innerProblems v = [] := by
  rw [problems_of_ne_null s hnull, ← admitsType_iff]
  split
  next htype => simp [htype, enumProblems_eq_nil_iff]
  next htype => simp [htype]

/-- The problems of items are those of each of them, at its index. -/
theorem mem_itemProblems_iff {t : Schema} {path : List String} {index : Nat} {items : List Json}
    {p : Problem} :
    p ∈ t.itemProblems path index items ↔
      ∃ i item, items[i]? = some item ∧
        p ∈ (t.problems item).map (Problem.under (path ++ [toString (index + i)])) := by
  induction items generalizing index with
  | nil => simp [itemProblems]
  | cons item rest ih =>
    rw [itemProblems, List.mem_append, ih, problemsAt_eq_map]
    constructor
    · rintro (h | ⟨i, inner, hinner, h⟩)
      · exact ⟨0, item, rfl, h⟩
      · exact ⟨i + 1, inner, hinner, by rwa [Nat.add_right_comm] at h⟩
    · rintro ⟨_ | i, inner, hinner, h⟩
      · cases hinner
        exact .inl h
      · exact .inr ⟨i, inner, hinner, by rwa [Nat.add_right_comm]⟩

/-- The problems of members are those of each of them that is declared, under its name, and those of
each that is not, if the schema is closed. -/
theorem mem_memberProblems_iff {s : Schema} {path : List String} {members : Dict Json}
    {p : Problem} :
    p ∈ s.memberProblems path members ↔
      ∃ e ∈ members,
        (∃ t, s.property? e.1 = some t ∧
          p ∈ (t.problems e.2).map (Problem.under (path ++ [e.1]))) ∨
        (s.property? e.1 = none ∧ s.Closed ∧ p = ⟨path ++ [e.1], .undeclared⟩) := by
  induction members with
  | nil => simp [memberProblems]
  | cons e rest ih =>
    simp only [memberProblems, List.mem_append, ih, List.mem_cons, or_and_right, exists_or,
      exists_eq_left]
    refine or_congr_left ?_
    cases s.property? e.1 with
    | some t => simp [problemsAt_eq_map]
    | none =>
      rw [← not_isOpen_iff]
      by_cases hopen : s.isOpen <;> simp [hopen]

/-! ## Validation and conformance -/

/-- Items have no problems if none of them has. -/
theorem itemProblems_eq_nil_iff {t : Schema} {items : List Json} :
    t.itemProblems [] 0 items = [] ↔ ∀ item ∈ items, t.problems item = [] := by
  simp only [List.eq_nil_iff_forall_not_mem, mem_itemProblems_iff, List.mem_map]
  constructor
  · intro h item hitem p hp
    obtain ⟨i, hi⟩ := List.mem_iff_getElem?.mp hitem
    exact h _ ⟨i, item, hi, p, hp, rfl⟩
  · rintro h _ ⟨i, item, hi, p, hp, rfl⟩
    exact h item (List.mem_of_getElem? hi) p hp

/-- A member is accepted if it has no problems itself and may stand where it does. -/
theorem acceptsMember_iff {s : Schema} {key : String} {v : Json} :
    s.AcceptsMember key v ↔
      (∀ t, s.property? key = some t → t.problems v = []) ∧
        (s.Closed → ∃ t, s.property? key = some t) := by
  unfold AcceptsMember
  rw [← not_isOpen_iff]
  cases s.property? key <;> simp

/-- There are no problems exactly if the value conforms to the schema. -/
theorem problems_eq_nil_iff_conforms (s : Schema) (v : Json) :
    s.problems v = [] ↔ s.Conforms v := by
  induction v using Json.inductionOnParts generalizing s with
  | leaf v hleaf =>
    -- A null is checked on its own, whatever the types are.
    by_cases hnull : v = .null
    · subst hnull
      rw [problems_null, conforms_null_iff, ← admitsNull_iff]
      split <;> simp [*]
    · -- Nothing is inside of any other leaf.
      have hinner : s.innerProblems v = [] := by
        cases v <;> first | rfl | exact hleaf.elim
      rw [problems_eq_nil_iff s hnull, conforms_scalar_iff hleaf hnull, hinner]
      simp
  | array items ih =>
    rw [problems_eq_nil_iff s (by simp), conforms_array_iff]
    refine and_congr_right fun _ => and_congr_right fun _ => ?_
    -- The items of an array have a schema, or are not checked.
    rw [innerProblems]
    cases s.items with
    | none => simp
    | some t =>
      simp only [Option.map_some, Option.getD_some, itemProblems_eq_nil_iff, Option.some.injEq,
        forall_eq']
      exact forall₂_congr fun item hitem => ih item hitem t
  | object members ih =>
    rw [problems_eq_nil_iff s (by simp), conforms_object_iff, innerProblems,
      List.append_eq_nil_iff, missingProblems_eq_nil_iff, memberProblems_eq_nil_iff]
    -- Both sides ask for the same of type, enumeration and required members.
    refine and_congr_right fun _ => and_congr_right fun _ => and_congr_right fun _ => ?_
    simp only [acceptsMember_iff, forall_and]
    refine and_congr ?_ ?_
    · exact forall₂_congr fun e he => forall₂_congr fun t _ => ih e he t
    · exact ⟨fun h hclosed e he => h e he hclosed, fun h e he hclosed => h hclosed e he⟩

/-! ## Where problems are -/

/-- The schema for what is one step inside of a value: the property of the name, or the schema of
all items. -/
def child? (s : Schema) (step : Json.Step) : Option Schema :=
  match step with
  | .member key => s.property? key
  | .item _ => s.items

/-- The schema that a place leads to, through properties and items. -/
def node? (place : List Json.Step) (s : Schema) : Option Schema :=
  match place with
  | [] => some s
  | step :: place => (s.child? step).bind (node? place)

/-- The problem is at the end of a place in the value. Either what is there violates the schema that
the place leads to, or it is a member that is not declared in a closed schema. -/
inductive Located (s : Schema) (v : Json) : Problem → Prop
  | violated {place : List Json.Step} {w : Json} {t : Schema} {violation : Violation}
      (hnode : v.node? place = some w) (hschema : s.node? place = some t)
      (hviolates : t.Violates w violation) :
      Located s v ⟨place.map Json.Step.token, violation⟩
  | undeclared {outer : List Json.Step} {key : String} {w : Json} {t : Schema}
      (hnode : v.node? (outer ++ [.member key]) = some w) (hschema : s.node? outer = some t)
      (hclosed : t.Closed) (hproperty : t.property? key = none) :
      Located s v ⟨(outer ++ [Json.Step.member key]).map Json.Step.token, .undeclared⟩

/-- A problem one step inside is as far inside of the schema. -/
theorem Located.under {s t : Schema} {v inner : Json} {step : Json.Step}
    (hinner : v.child? step = some inner) (ht : s.child? step = some t) {p : Problem}
    (h : t.Located inner p) : s.Located v (p.under [step.token]) := by
  have hvalue : ∀ place, v.node? (step :: place) = inner.node? place := by
    intro place
    rw [Json.node?, hinner, Option.bind_some]
  have hschema : ∀ place, s.node? (step :: place) = t.node? place := by
    intro place
    rw [node?, ht, Option.bind_some]
  cases h with
  | violated hnode hnode' hviolates =>
    exact .violated ((hvalue _).trans hnode) ((hschema _).trans hnode') hviolates
  | undeclared hnode hnode' hclosed hproperty =>
    exact .undeclared ((hvalue _).trans hnode) ((hschema _).trans hnode') hclosed hproperty

/-- A violation by the whole value is located at it. -/
theorem Violates.located {s : Schema} {v : Json} {violation : Violation}
    (h : s.Violates v violation) : s.Located v ⟨[], violation⟩ :=
  (.violated rfl rfl h : s.Located v ⟨List.map Json.Step.token [], violation⟩)

/-- A problem of a value is a violation by the value itself, or a problem of what is in it. -/
theorem located_or_mem_innerProblems {s : Schema} {v : Json} {p : Problem}
    (hp : p ∈ s.problems v) : s.Located v p ∨ p ∈ s.innerProblems v := by
  by_cases hnull : v = .null
  · subst hnull
    rw [problems_null, List.mem_ite_nil_left, List.mem_singleton, admitsNull_iff] at hp
    obtain ⟨hnull, rfl⟩ := hp
    exact .inl (Violates.nullValue hnull).located
  · rw [problems_of_ne_null s hnull] at hp
    split at hp
    next =>
      refine (List.mem_append.mp hp).imp_left fun henum => ?_
      rw [enumProblems, List.mem_ite_nil_left, List.mem_singleton, admitsValue_iff] at henum
      obtain ⟨hvalue, rfl⟩ := henum
      exact (Violates.notAdmitted hnull hvalue).located
    next htype =>
      rw [admitsType_iff] at htype
      rw [List.mem_singleton.mp hp]
      exact .inl (Violates.typeMismatch hnull htype).located

/-- Every problem is where it says it is. -/
theorem located_of_mem_problems {s : Schema} {v : Json} (hv : v.Ordered) {p : Problem}
    (hp : p ∈ s.problems v) : s.Located v p := by
  -- A problem of an item or a member is one step further inside, in the schema as in the value.
  induction v using Json.inductionOnParts generalizing s p with
  | leaf v hleaf =>
    refine (located_or_mem_innerProblems hp).resolve_right fun hinner => ?_
    cases v <;> first | cases hinner | exact hleaf
  | array items ih =>
    refine (located_or_mem_innerProblems hp).elim id fun hinner => ?_
    rw [innerProblems] at hinner
    cases ht : s.items with
    | none => simp [ht] at hinner
    | some t =>
      rw [ht, Option.map_some, Option.getD_some, mem_itemProblems_iff] at hinner
      obtain ⟨i, item, hitem, hp⟩ := hinner
      obtain ⟨q, hq, rfl⟩ := List.mem_map.mp hp
      have hchild : (Json.array items).child? (.item i) = some item := hitem
      rw [Nat.zero_add]
      exact (ih item (List.mem_of_getElem? hitem) (hv.child? hchild) hq).under hchild ht
  | object members ih =>
    refine (located_or_mem_innerProblems hp).elim id fun hinner => ?_
    have hsorted : Dict.Sorted members := by
      cases hv with
      | leaf hleaf => exact hleaf.elim
      | object hsorted => exact hsorted
    rw [innerProblems, List.mem_append, mem_memberProblems_iff] at hinner
    rcases hinner with hmissing | ⟨⟨key, inner⟩, he, ⟨t, ht, hp⟩ | ⟨hproperty, hclosed, rfl⟩⟩
    · -- A missing property is a violation by the object itself.
      obtain ⟨name, hname, rfl⟩ := List.mem_map.mp hmissing
      obtain ⟨hrequired, habsent⟩ := List.mem_filter.mp hname
      exact (Violates.missingProperty hrequired (by simpa using habsent)).located
    · obtain ⟨q, hq, rfl⟩ := List.mem_map.mp hp
      have hchild : (Json.object members).child? (.member key) = some inner :=
        (Dict.get?_eq_some_iff hsorted).mpr he
      exact (ih _ he (hv.child? hchild) hq).under hchild ht
    · have hnode : (Json.object members).node? ([] ++ [.member key]) = some inner := by
        rw [List.nil_append, Json.node?, Json.child?, (Dict.get?_eq_some_iff hsorted).mpr he]
        rfl
      exact (Located.undeclared hnode rfl hclosed hproperty :)

/-- Validation succeeds exactly if the value conforms to the schema. If it fails, then each problem
has a place in the value, whose tokens the path of the problem is read as; the whole value is at
`/`. What is there violates the schema that the same steps lead to, or it stands under a name that a
closed schema does not declare. -/
theorem located_problems (s : Schema) (v : Json) :
    (s.accepts v ↔ s.Conforms v) ∧
    (v.Ordered → ∀ p ∈ s.problems v, ∃ place w,
      Pointer.parse? (Pointer.text p.path) = some (place.map Json.Step.token) ∧
      p.location = (if place = [] then "/" else Pointer.text p.path) ∧
      v.node? place = some w ∧
      ((∃ t, s.node? place = some t ∧ t.Violates w p.violation ∧ ¬t.Conforms w) ∨
        ∃ outer key t, place = outer ++ [.member key] ∧ s.node? outer = some t ∧ t.Closed ∧
          t.property? key = none ∧ p.violation = .undeclared)) := by
  refine ⟨by rw [accepts, List.isEmpty_iff, problems_eq_nil_iff_conforms], fun hv p hp => ?_⟩
  -- The whole value is shown as a slash, since the text of its path is empty.
  have hlocation : ∀ place violation,
      (Problem.mk (place.map Json.Step.token) violation).location =
        if place = [] then "/" else Pointer.text (place.map Json.Step.token) := by
    intro place violation
    cases place <;> rfl
  cases located_of_mem_problems hv hp with
  | violated hnode hschema hviolates =>
    exact ⟨_, _, Pointer.parse?_text _, hlocation _ _, hnode,
      .inl ⟨_, hschema, hviolates, hviolates.not_conforms⟩⟩
  | undeclared hnode hschema hclosed hproperty =>
    exact ⟨_, _, Pointer.parse?_text _, hlocation _ _, hnode,
      .inr ⟨_, _, _, rfl, hschema, hclosed, hproperty, rfl⟩⟩

/-- Labels by resource, and nothing else. -/
def labels : Schema := .object [("disks/ssd", .array .string)] []

/-- A label that is no text is found below its resource, whose name has a slash. -/
theorem located_problems_labels :
    ∃ v p place w t, v.Ordered ∧ labels.problems v = [p] ∧ p.location = "/disks~1ssd/1" ∧
      v.node? place = some w ∧ labels.node? place = some t ∧ ¬t.Conforms w := by
  let v : Json := .object [("disks/ssd", .array [.string "fast", .int 1])]
  have hordered : v.Ordered := by
    refine .object (List.pairwise_singleton _ _) fun e he => ?_
    rw [List.mem_singleton.mp he]
    refine .array fun item hitem => .leaf ?_
    simp only [List.mem_cons, List.not_mem_nil, or_false] at hitem
    rcases hitem with rfl | rfl <;> trivial
  have hproblems : labels.problems v =
      [⟨["disks/ssd", "1"], .typeMismatch ["string"] .number⟩] := by
    rfl
  obtain ⟨place, w, -, -, hnode, ⟨t, ht, -, hconforms⟩ | ⟨_, _, _, -, -, -, -, hviolation⟩⟩ :=
    (located_problems labels v).2 hordered _ (hproblems ▸ List.mem_singleton_self _)
  · exact ⟨v, _, place, w, t, hordered, hproblems, by decide +kernel, hnode, ht, hconforms⟩
  · cases hviolation

end Schema

end ApiCommand
