import ApiCommand.Catalog.Request
import ApiCommand.Proofs.Dict
import Mathlib.Data.List.Basic

/-!
# Parts of a request

A request is built unless a path parameter has no value (`request_eq_ok_iff`). If a property of the
body has one external name, then the member of the body is the value under that name, whatever other
properties there are (`member?_body`).
-/

namespace ApiCommand.Operation

variable {op : Operation} {inputs : Inputs} {request : Request} {name w : String}

/-- A request is made exactly if no path parameter lacks a value, and it is the one that the fields
describe. -/
theorem request_eq_ok_iff :
    op.request inputs = .ok request ↔
      op.missingPath? inputs = none ∧
        request =
          { method := op.method, url := op.url inputs, headers := op.headers inputs
            body := op.body inputs } := by
  unfold Operation.request
  cases op.missingPath? inputs <;> simp [eq_comm]

/-- No path parameter is missing if all of them have a value. -/
theorem missingPath?_eq_none_iff :
    op.missingPath? inputs = none ↔
      ∀ b ∈ op.bindings, b.location = .path → ∃ v, valueOf inputs b = some v := by
  simp only [missingPath?, List.find?_eq_none, Bool.and_eq_true, beq_iff_eq, not_and,
    Option.isNone_iff_eq_none, ← ne_eq, Option.ne_none_iff_exists']

/-- What is given for a location are the values of its bindings, by wire name. -/
theorem mem_given_iff {l : Location} {v : Json} :
    (name, v) ∈ op.given inputs l ↔
      ∃ b ∈ op.bindings, b.location = l ∧ b.wireName = name ∧ valueOf inputs b = some v := by
  simp only [given, List.mem_filterMap, List.mem_filter, beq_iff_eq, Option.map_eq_some_iff,
    Prod.mk.injEq]
  constructor
  · rintro ⟨b, ⟨hb, hlocation⟩, v', hv, hname, rfl⟩
    exact ⟨b, hb, hlocation, hname, hv⟩
  · rintro ⟨b, hb, hlocation, hname, hv⟩
    exact ⟨b, ⟨hb, hlocation⟩, v, hv, hname, rfl⟩

/-! ## The body -/

/-- The values of the properties of the body, by the names they have there. -/
def bodyMembers (op : Operation) (inputs : Inputs) : List (String × Json) :=
  op.bodyProperties.filterMap fun e => (Dict.get? inputs.parameters e.1).map fun v => (e.2, v)

/-- There is a body if some property of it has a value, and it then has the members of those that
do. -/
theorem body_eq_bodyMembers (op : Operation) (inputs : Inputs) :
    op.body inputs =
      if (op.bodyMembers inputs).isEmpty then none
      else some (.ofMembers (op.bodyMembers inputs)) := rfl

/-- The members are the values of the properties, under the names that these have in the body. -/
theorem mem_bodyMembers_iff (hsorted : Dict.Sorted op.bodyProperties) {v : Json} :
    (w, v) ∈ op.bodyMembers inputs ↔
      ∃ name, Dict.get? op.bodyProperties name = some w ∧
        Dict.get? inputs.parameters name = some v := by
  simp only [bodyMembers, List.mem_filterMap, Option.map_eq_some_iff, Prod.mk.injEq,
    Dict.get?_eq_some_iff hsorted]
  constructor
  · rintro ⟨⟨name, w'⟩, hentry, v', hv, rfl, rfl⟩
    exact ⟨name, hentry, hv⟩
  · rintro ⟨name, hentry, hv⟩
    exact ⟨(name, w), hentry, v, hv, rfl, rfl⟩

/-- There is no body if no property has a value. -/
theorem body_eq_none_iff (hsorted : Dict.Sorted op.bodyProperties) :
    op.body inputs = none ↔
      ∀ name w, Dict.get? op.bodyProperties name = some w →
        Dict.get? inputs.parameters name = none := by
  have hempty : op.body inputs = none ↔ op.bodyMembers inputs = [] := by
    rw [body_eq_bodyMembers]
    split <;> simp_all
  simp only [hempty, List.eq_nil_iff_forall_not_mem, Prod.forall, mem_bodyMembers_iff hsorted,
    not_exists, not_and, Option.eq_none_iff_forall_ne_some]
  exact ⟨fun h name w hname v => h w v name hname, fun h w v name hname => h name w hname v⟩

/-- The members of the body, if every property has one external name at most. -/
theorem get?_bodyMembers_iff (hsorted : Dict.Sorted op.bodyProperties)
    (hunique : ∀ {name other w}, Dict.get? op.bodyProperties name = some w →
      Dict.get? op.bodyProperties other = some w → name = other) {v : Json} :
    Dict.get? (Dict.ofList (op.bodyMembers inputs)) w = some v ↔
      ∃ name, Dict.get? op.bodyProperties name = some w ∧
        Dict.get? inputs.parameters name = some v := by
  rw [← mem_bodyMembers_iff hsorted]
  constructor
  · intro h
    rw [Dict.get?_ofList] at h
    exact List.mem_reverse.mp (Dict.mem_of_get?_eq_some h)
  · intro h
    obtain ⟨name, hname, hv⟩ := (mem_bodyMembers_iff hsorted).mp h
    refine Dict.get?_ofList_eq_some h fun v' hv' => ?_
    obtain ⟨other, hother, hv'⟩ := (mem_bodyMembers_iff hsorted).mp hv'
    rw [hunique hname hother, hv'] at hv
    exact Option.some.inj hv

/-- A member of the body of a request is the value of the parameter with the external name of the
property. Without members there is no body. -/
theorem member?_body (hsorted : Dict.Sorted op.bodyProperties)
    (hname : ∀ other, Dict.get? op.bodyProperties other = some w ↔ other = name) :
    (op.body inputs).bind (fun v => v.member? w) = Dict.get? inputs.parameters name := by
  have hmem : ∀ v, (w, v) ∈ op.bodyMembers inputs ↔ Dict.get? inputs.parameters name = some v := by
    simp only [mem_bodyMembers_iff hsorted, hname, exists_eq_left, implies_true]
  rw [body_eq_bodyMembers]
  split
  next hempty =>
    rw [List.isEmpty_iff.mp hempty] at hmem
    exact Dict.get?_eq_of_forall_mem_iff hmem
  next =>
    show Dict.get? (Dict.ofList (op.bodyMembers inputs)) w = _
    rw [Dict.get?_ofList]
    exact Dict.get?_eq_of_forall_mem_iff fun v => List.mem_reverse.trans (hmem v)

/-! ## What the parts depend on -/

/-- What is given for a location depends on the values under the names of its bindings alone. -/
theorem given_congr {inputs' : Inputs} {l : Location}
    (h : ∀ b ∈ op.bindings, b.location = l → valueOf inputs b = valueOf inputs' b) :
    op.given inputs l = op.given inputs' l := by
  refine List.filterMap_congr fun b hb => ?_
  obtain ⟨hmem, hlocation⟩ := List.mem_filter.mp hb
  rw [h b hmem (by simpa using hlocation)]

/-- The address depends on the values under the names of path and query parameters alone. -/
theorem url_congr {inputs' : Inputs}
    (h : ∀ b ∈ op.bindings, b.location.isConfig = false →
      Dict.get? inputs.parameters b.externalName = Dict.get? inputs'.parameters b.externalName) :
    op.url inputs = op.url inputs' := by
  have hgiven : ∀ l : Location, l.isConfig = false → op.given inputs l = op.given inputs' l := by
    intro l hl
    refine given_congr fun b hb hlocation => ?_
    rw [← hlocation] at hl
    simpa [valueOf, Inputs.at, hl] using h b hb hl
  unfold url query filledPath
  rw [hgiven .path rfl, hgiven .query rfl]

/-- The body depends on the values under the names of its properties alone. -/
theorem body_congr {inputs' : Inputs}
    (h : ∀ name, Dict.contains op.bodyProperties name →
      Dict.get? inputs.parameters name = Dict.get? inputs'.parameters name) :
    op.body inputs = op.body inputs' := by
  have hmembers : op.bodyMembers inputs = op.bodyMembers inputs' :=
    List.filterMap_congr fun e he => by rw [h e.1 (Dict.contains_of_mem he)]
  rw [body_eq_bodyMembers, body_eq_bodyMembers, hmembers]

end ApiCommand.Operation
