import ApiCommand.Proofs.Catalog.Operation
import ApiCommand.Proofs.Flag.Naming

/-!
# Names of the properties of the body

Each property of the body gets an external name that no parameter and no other property has, so that
the table of external names is a bijection onto the properties (`names_bodySchemas`). The name is
the first one that is free, counting marks from none.
-/

namespace ApiCommand

namespace BodyNames

variable {own : String → Prop} {mark : String} {b : BodyNames} {done : Dict Schema}

/-- Properties have been added to parameters with their own names. Each of the properties has one
external name in the table. -/
structure Names (own : String → Prop) (mark : String) (b : BodyNames) (done : Dict Schema) :
    Prop where
  sorted : Dict.Sorted b.wireNames
  /-- The names of parameters are their own ones and those of the properties. -/
  contains_iff : ∀ {name}, Dict.contains b.properties.schemas name ↔
    own name ∨ ∃ w, Dict.get? b.wireNames name = some w
  exists_name_iff : ∀ {w}, (∃ name, Dict.get? b.wireNames name = some w) ↔ Dict.contains done w
  unique : ∀ {name other w}, Dict.get? b.wireNames name = some w →
    Dict.get? b.wireNames other = some w → name = other
  /-- A name has the least number of marks that makes it differ from those given before it. -/
  isLeastMarked : ∀ {name w}, Dict.get? b.wireNames name = some w →
    ∃ schema, (w, schema) ∈ done ∧
      IsLeastMarked (fun other => own other ∨ ∃ v < w, Dict.get? b.wireNames other = some v)
        conflictMark (externalName mark w schema) name

/-- Before any property of the body is added there is nothing to name. -/
theorem names_nil (mark : String) (properties : Properties) :
    Names (fun name => Dict.contains properties.schemas name) mark { properties } [] where
  sorted := Dict.sorted_nil
  contains_iff := by simp
  exists_name_iff := by simp [Dict.contains]
  unique := by simp
  isLeastMarked := by simp

section Add

variable (h : b.Names own mark done) {w fresh : String}

include h

/-- The properties in the table come before one that is yet to be added. -/
theorem Names.lt_of_get? (hw : ∀ e ∈ done, e.1 < w) {name v : String}
    (hname : Dict.get? b.wireNames name = some v) : v < w := by
  obtain ⟨schema, hmem⟩ := Dict.exists_mem_of_contains (h.exists_name_iff.mp ⟨name, hname⟩)
  exact hw _ hmem

/-- A name that no parameter has is not in the table. -/
theorem Names.ne_of_get? (hfresh : ¬Dict.contains b.properties.schemas fresh) {name v : String}
    (hname : Dict.get? b.wireNames name = some v) : fresh ≠ name := by
  rintro rfl
  exact hfresh (h.contains_iff.mpr (Or.inr ⟨v, hname⟩))

/-- A name that is given to a property is not taken from the view of the properties before it. -/
theorem Names.exists_lt_get?_insert_iff (hfresh : ¬Dict.contains b.properties.schemas fresh)
    {v : String} (hv : ¬w < v) (other : String) :
    (∃ u < v, Dict.get? (Dict.insert b.wireNames fresh w) other = some u) ↔
      ∃ u < v, Dict.get? b.wireNames other = some u := by
  simp only [Dict.get?_insert]
  split
  next heq =>
    subst heq
    constructor
    · rintro ⟨u, hu, hw'⟩
      cases hw'
      exact absurd hu hv
    · rintro ⟨u, -, hother⟩
      exact absurd rfl (h.ne_of_get? hfresh hother)
  next => exact Iff.rfl

/-- In the table with a new property, each property has one name. -/
theorem Names.unique_insert (hw : ∀ e ∈ done, e.1 < w) {name other v : String}
    (hname : Dict.get? (Dict.insert b.wireNames fresh w) name = some v)
    (hother : Dict.get? (Dict.insert b.wireNames fresh w) other = some v) : name = other := by
  rw [Dict.get?_insert] at hname hother
  -- The new property has one name, and this is the name of no other one.
  split at hname <;> split at hother
  next heq heq' => exact heq.symm.trans heq'
  next =>
    cases hname
    exact absurd (h.lt_of_get? hw hother) (String.lt_irrefl w)
  next =>
    cases hother
    exact absurd (h.lt_of_get? hw hname) (String.lt_irrefl w)
  next => exact h.unique hname hother

/-- The properties with a name are those before and the new one. -/
theorem Names.exists_get?_insert_iff (hfresh : ¬Dict.contains b.properties.schemas fresh)
    {v : String} :
    (∃ name, Dict.get? (Dict.insert b.wireNames fresh w) name = some v) ↔
      Dict.contains done v ∨ w = v := by
  rw [← h.exists_name_iff]
  simp only [Dict.get?_insert]
  constructor
  · rintro ⟨name, hname⟩
    split at hname
    next => exact Or.inr (Option.some.inj hname)
    next => exact Or.inl ⟨name, hname⟩
  · rintro (⟨name, hname⟩ | rfl)
    · exact ⟨name, by rw [if_neg (h.ne_of_get? hfresh hname), hname]⟩
    · exact ⟨fresh, if_pos rfl⟩

end Add

/-- Adding a property gives it a name that is not taken, so no other one loses its name. -/
theorem Names.add (h : b.Names own mark done) {w : String} (hw : ∀ e ∈ done, e.1 < w)
    (schema : Schema) (required : Bool) :
    (b.add mark w schema required).Names own mark (done ++ [(w, schema)]) := by
  have hmark : 0 < conflictMark.length := by decide
  have hleast := isLeastMarked_freshName b.properties.schemas hmark (externalName mark w schema)
  unfold BodyNames.add
  generalize freshName b.properties.schemas conflictMark b.properties.schemas.length
    (externalName mark w schema) = fresh at hleast ⊢
  have htaken : ∀ {v}, ¬w < v → ∀ other,
      (∃ u < v, Dict.get? (Dict.insert b.wireNames fresh w) other = some u) ↔
        ∃ u < v, Dict.get? b.wireNames other = some u :=
    fun hv => h.exists_lt_get?_insert_iff hleast.1 hv
  constructor
  case sorted => exact h.sorted.insert fresh w
  case contains_iff =>
    intro name
    simp only [Properties.add, Dict.contains_insert, Bool.or_eq_true, beq_iff_eq, h.contains_iff,
      Dict.get?_insert]
    by_cases heq : fresh = name <;> simp [heq]
  case exists_name_iff =>
    intro v
    rw [h.exists_get?_insert_iff hleast.1]
    simp [Dict.contains, Dict.get?_append]
  case unique => exact h.unique_insert hw
  case isLeastMarked =>
    intro name v hname
    simp only [Dict.get?_insert] at hname
    split at hname
    next heq =>
      -- All names in the table have been given before.
      cases hname
      subst heq
      have hbefore : ∀ other, (∃ u < w, Dict.get? b.wireNames other = some u) ↔
          ∃ u, Dict.get? b.wireNames other = some u := fun other =>
        exists_congr fun u => and_iff_right_of_imp fun hu => h.lt_of_get? hw hu
      refine ⟨schema, List.mem_append_right _ (List.mem_singleton_self _), ?_⟩
      simpa only [htaken (String.lt_irrefl w), hbefore, ← h.contains_iff] using hleast
    next =>
      obtain ⟨schema', hmem, hleast'⟩ := h.isLeastMarked hname
      refine ⟨schema', List.mem_append_left _ hmem, ?_⟩
      simpa only [htaken (String.lt_asymm (h.lt_of_get? hw hname))] using hleast'

/-- Each property that was added has one name. -/
theorem Names.exists_forall_get?_iff (h : b.Names own mark done) {w : String}
    (hw : Dict.contains done w) :
    ∃ name, ∀ other, Dict.get? b.wireNames other = some w ↔ other = name := by
  obtain ⟨name, hname⟩ := h.exists_name_iff.mpr hw
  refine ⟨name, fun other => ⟨fun hother => h.unique hother hname, ?_⟩⟩
  rintro rfl
  exact hname

/-- Adding the properties of a body gives each of them a name. -/
theorem Names.foldl_add (h : b.Names own mark done) (required : String → Bool)
    {properties : Dict Schema} (hsorted : Dict.Sorted (done ++ properties)) :
    (properties.foldl (fun b e => b.add mark e.1 e.2 (required e.1)) b).Names own mark
      (done ++ properties) := by
  induction properties generalizing b done with
  | nil => simpa using h
  | cons e rest ih =>
    -- Properties come in order, so those that were added come before the next one.
    have hbefore : ∀ e' ∈ done, e'.1 < e.1 := fun e' he' =>
      (List.pairwise_append.mp hsorted).2.2 e' he' e List.mem_cons_self
    have hstep := ih (h.add hbefore e.2 (required e.1)) (by simpa using hsorted)
    simpa using hstep

end BodyNames

namespace Operation

/-- The external name of a path or query parameter. -/
def IsOwnName (mark : String) (spec : OperationSpec) (name : String) : Prop :=
  ∃ p ∈ spec.parameters, p.location.isConfig = false ∧ (p.binding mark).externalName = name

/-- The properties of the body that an operation declares. -/
def bodySchemas (spec : OperationSpec) : Dict Schema :=
  (spec.requestBody.map Schema.properties).getD []

/-- The table of an operation gives each property of its body one name, which no path or query
parameter has. Without a body there are no names. -/
theorem names_bodySchemas (mark : String) {spec : OperationSpec}
    (hsorted : Dict.Sorted (bodySchemas spec)) :
    (parametersOf mark spec).Names (IsOwnName mark spec) mark (bodySchemas spec) := by
  have hstart := BodyNames.names_nil mark ((spec.parameters.filter fun p =>
    !p.location.isConfig).foldl (Properties.addParameter mark) {})
  have hown : (fun name => (Dict.contains ((spec.parameters.filter fun p =>
      !p.location.isConfig).foldl (Properties.addParameter mark) {}).schemas name : Prop)) =
        IsOwnName mark spec := by
    funext name
    rw [Properties.contains_foldl_addParameter]
    simp [IsOwnName, Dict.contains, and_assoc]
  rw [hown] at hstart
  unfold parametersOf
  unfold bodySchemas at hsorted ⊢
  cases hbody : spec.requestBody with
  | none => exact hstart
  | some body =>
    rw [hbody] at hsorted
    exact hstart.foldl_add body.requires hsorted

/-- Among the parameters of an operation, each property of the body has its external name. -/
theorem names_parametersOf (mark : String) {spec : OperationSpec} {body : Schema}
    (hbody : spec.requestBody = some body) (hsorted : Dict.Sorted body.properties) :
    (parametersOf mark spec).Names (IsOwnName mark spec) mark body.properties := by
  have hschemas : bodySchemas spec = body.properties := by rw [bodySchemas, hbody]; rfl
  rw [← hschemas] at hsorted ⊢
  exact names_bodySchemas mark hsorted

end Operation

end ApiCommand
