import ApiCommand.Proofs.Dict
import ApiCommand.Schema.Validation

/-!
# Validation of parts

A value has the same problems wherever it stands: `problemsAt_append` moves a place by putting a
path in front. Validating an object is therefore validating its members one by one, each by the
schema of its property (`memberProblems_eq_nil_iff`), and what is left for a closed schema of
objects is that the required names are there and that no other name is
(`problems_object_eq_nil_iff`).
-/

namespace ApiCommand

/-- The problem as it is seen from outside, with `path` as the way to the value it is about. -/
def Problem.under (path : List String) (p : Problem) : Problem := { p with path := path ++ p.path }

namespace Schema

/-! ## Problems at a place -/

/-- Problems with enumerated values are found where the value is. -/
theorem enumProblems_append (s : Schema) (outer path : List String) (v : Json) :
    s.enumProblems (outer ++ path) v = (s.enumProblems path v).map (Problem.under outer) := by
  unfold enumProblems
  split <;> rfl

/-- Problems with required members are found where the object is. -/
theorem missingProblems_append (s : Schema) (outer path : List String) (members : Dict Json) :
    s.missingProblems (outer ++ path) members =
      (s.missingProblems path members).map (Problem.under outer) := by
  simp [missingProblems, Problem.under, Function.comp_def]

/-- Values, items and members have the same problems wherever they stand. -/
private theorem problems_append (outer : List String) :
    (∀ (s : Schema) (path : List String) (v : Json),
      s.problemsAt (outer ++ path) v = (s.problemsAt path v).map (Problem.under outer)) ∧
    (∀ (s : Schema) (path : List String) (index : Nat) (items : List Json),
      s.itemProblems (outer ++ path) index items =
        (s.itemProblems path index items).map (Problem.under outer)) ∧
    ∀ (s : Schema) (path : List String) (members : List (String × Json)),
      s.memberProblems (outer ++ path) members =
        (s.memberProblems path members).map (Problem.under outer) := by
  apply problemsAt.mutual_induct
  -- Null.
  · intro s path hnull
    simp [problemsAt, hnull]
  · intro s path hnull
    simp [problemsAt, hnull, Problem.under]
  -- Objects.
  · intro s path members htype ih
    simp [problemsAt, htype, ih, enumProblems_append, missingProblems_append]
  · intro s path members htype
    simp [problemsAt, htype, Problem.under]
  -- Arrays.
  · intro s path items htype ih
    simp only [problemsAt, htype, if_true, List.map_append, enumProblems_append]
    cases s.items with
    | none => rfl
    | some item => simp [ih]
  · intro s path items htype
    simp [problemsAt, htype, Problem.under]
  -- Other values.
  · intro s path v hnull hobject harray htype
    cases v <;> simp_all [problemsAt, enumProblems_append]
  · intro s path v hnull hobject harray htype
    cases v <;> simp_all [problemsAt, Problem.under]
  -- Items.
  · intro s path index
    simp [itemProblems]
  · intro s path index item rest ihitem ihrest
    rw [itemProblems, itemProblems, List.map_append, ← ihitem, ihrest, List.append_assoc]
  -- Members.
  · intro s path
    simp [memberProblems]
  · intro s path key v rest ihmember ihrest
    simp only [memberProblems, List.map_append, ihrest]
    congr 1
    cases s.property? key with
    | none => by_cases hopen : s.isOpen <;> simp [hopen, Problem.under]
    | some property => simp [← ihmember]

/-- A value has the same problems wherever it stands. -/
theorem problemsAt_append (s : Schema) (outer path : List String) (v : Json) :
    s.problemsAt (outer ++ path) v = (s.problemsAt path v).map (Problem.under outer) :=
  (problems_append outer).1 s path v

/-- The problems of a value at a place are its own problems, seen from outside. -/
theorem problemsAt_eq_map (s : Schema) (path : List String) (v : Json) :
    s.problemsAt path v = (s.problems v).map (Problem.under path) := by
  rw [problems, ← problemsAt_append, List.append_nil]

/-- Whether a value has problems does not depend on where it stands. -/
theorem problemsAt_eq_nil_iff (s : Schema) (path : List String) (v : Json) :
    s.problemsAt path v = [] ↔ s.problems v = [] := by
  rw [problemsAt_eq_map, List.map_eq_nil_iff]

/-- A value has complaints exactly if it has problems. -/
theorem complaints_eq_nil_iff (s : Schema) (v : Json) : s.complaints v = [] ↔ s.problems v = [] :=
  List.map_eq_nil_iff

/-! ## Objects -/

/-- The member has a value that its property admits, or stands under an additional name of a schema
that admits these. -/
def AcceptsMember (s : Schema) (key : String) (v : Json) : Prop :=
  match s.property? key with
  | some property => property.problems v = []
  | none => s.isOpen

/-- The members of an object are validated one by one. -/
theorem memberProblems_eq_nil_iff (s : Schema) (path : List String) (members : Dict Json) :
    s.memberProblems path members = [] ↔ ∀ e ∈ members, s.AcceptsMember e.1 e.2 := by
  induction members with
  | nil => simp [memberProblems]
  | cons e rest ih =>
    rw [memberProblems, List.append_eq_nil_iff, ih, List.forall_mem_cons]
    refine and_congr_left fun _ => ?_
    unfold AcceptsMember
    cases s.property? e.1 with
    | none => by_cases hopen : s.isOpen <;> simp [hopen]
    | some property => exact problemsAt_eq_nil_iff property _ _

/-- No required property is missing if an object has members of all required names. -/
theorem missingProblems_eq_nil_iff (s : Schema) (path : List String) (members : Dict Json) :
    s.missingProblems path members = [] ↔ ∀ name ∈ s.required, Dict.contains members name := by
  simp [missingProblems, List.filter_eq_nil_iff]

/-- An object conforms to a closed schema of objects if it has all required members, and each of its
members is declared and conforms to its property. -/
theorem problems_object_eq_nil_iff (properties : Dict Schema) (required : List String)
    (members : Dict Json) :
    (object properties required).problems (.object members) = [] ↔
      (∀ name ∈ required, Dict.contains members name) ∧
        ∀ e ∈ members, ∃ property,
          Dict.get? properties e.1 = some property ∧ property.problems e.2 = [] := by
  have htype : (object properties required).admitsType (.object members) := rfl
  have henum : (object properties required).enumProblems [] (.object members) = [] := rfl
  have hmember : ∀ e : String × Json, (object properties required).AcceptsMember e.1 e.2 ↔
      ∃ property, Dict.get? properties e.1 = some property ∧ property.problems e.2 = [] := by
    intro e
    unfold AcceptsMember
    rw [show (object properties required).property? e.1 = Dict.get? properties e.1 from rfl]
    cases Dict.get? properties e.1 with
    | none => simp [isOpen, object]
    | some property => simp
  rw [problems, problemsAt, if_pos htype, henum, List.nil_append, List.append_eq_nil_iff,
    missingProblems_eq_nil_iff, memberProblems_eq_nil_iff]
  simp only [hmember]
  rfl

end Schema

end ApiCommand
