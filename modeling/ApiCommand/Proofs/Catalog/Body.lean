import ApiCommand.Proofs.Catalog.BodyNames
import ApiCommand.Proofs.Catalog.Request

/-!
# Bodies of requests

The parameters of an operation are shared by the address of a request and its body. The table of
external names keeps them apart: it is a bijection onto the properties of the body, and no path or
query parameter has a name in it. So the body is made of the values under the names in the table,
the address of the values under other names (`body_of_request`).
-/

namespace ApiCommand

namespace BodyNames

variable {own : String → Prop} {mark : String} {b : BodyNames} {done : Dict Schema}

/-- No parameter has the name of a property as its own one. -/
theorem Names.not_own (h : b.Names own mark done) {name w : String}
    (hname : Dict.get? b.wireNames name = some w) : ¬own name := by
  obtain ⟨schema, -, hleast⟩ := h.isLeastMarked hname
  exact fun hown => hleast.1 (Or.inl hown)

/-- The table is a bijection onto the properties that were added. -/
theorem Names.perm_keys (h : b.Names own mark done) (hsorted : Dict.Sorted done) :
    (b.wireNames.map Prod.snd).Perm (Dict.keys done) := by
  have hnodup : (b.wireNames.map Prod.snd).Nodup := by
    refine h.sorted.nodup.map_on fun e he e' he' heq => ?_
    have hget := (Dict.get?_eq_some_iff h.sorted).mpr he
    have hget' := (Dict.get?_eq_some_iff h.sorted).mpr he'
    exact Prod.ext (h.unique hget (heq ▸ hget')) heq
  -- Neither side has duplicates, so it is enough that they have the same members.
  refine (List.perm_ext_iff_of_nodup hnodup hsorted.nodup_keys).mpr fun w => ?_
  have hkeys : w ∈ Dict.keys done ↔ Dict.contains done w := by
    simp [Dict.keys, Dict.contains_iff_exists_mem]
  rw [hkeys, ← h.exists_name_iff]
  simp [Dict.get?_eq_some_iff h.sorted]

end BodyNames

namespace Operation

variable {mark baseUrl : String} {shared : Option Schema} {spec : OperationSpec} {body : Schema}

/-- Each property of the body has an external name, which is its candidate with as many marks as
make it differ from the names given before, and the names and properties belong together one to one.
A request has a body if a property has a value, and the body is the object of these values. It
depends on the values under the names in the table alone, and the address on the others alone. -/
theorem body_of_request (hbody : spec.requestBody = some body)
    (hsorted : Dict.Sorted body.properties) :
    (∀ w schema, (w, schema) ∈ body.properties →
      ∃ name, Dict.get? (ofSpec mark baseUrl shared spec).bodyProperties name = some w ∧
        IsLeastMarked (fun other => IsOwnName mark spec other ∨
            ∃ v < w, Dict.get? (ofSpec mark baseUrl shared spec).bodyProperties other = some v)
          BodyNames.conflictMark (externalName mark w schema) name) ∧
    (Dict.keys (ofSpec mark baseUrl shared spec).bodyProperties).Nodup ∧
    ((ofSpec mark baseUrl shared spec).bodyProperties.map Prod.snd).Perm
      (Dict.keys body.properties) ∧
    (∀ name, Dict.contains (ofSpec mark baseUrl shared spec).bodyProperties name →
      ∀ p ∈ spec.parameters, p.location.isConfig = false →
        (p.binding mark).externalName ≠ name) ∧
    (∀ inputs request, (ofSpec mark baseUrl shared spec).request inputs = .ok request →
      (request.body = none ↔
        ∀ name w, Dict.get? (ofSpec mark baseUrl shared spec).bodyProperties name = some w →
          Dict.get? inputs.parameters name = none) ∧
      ∀ v, request.body = some v → ∃ members, v = .object members ∧ Dict.Sorted members ∧
        ∀ w x, Dict.get? members w = some x ↔
          ∃ name, Dict.get? (ofSpec mark baseUrl shared spec).bodyProperties name = some w ∧
            Dict.get? inputs.parameters name = some x) ∧
    ∀ inputs inputs' request request',
      (ofSpec mark baseUrl shared spec).request inputs = .ok request →
      (ofSpec mark baseUrl shared spec).request inputs' = .ok request' →
      ((∀ name, Dict.contains (ofSpec mark baseUrl shared spec).bodyProperties name →
          Dict.get? inputs.parameters name = Dict.get? inputs'.parameters name) →
        request.body = request'.body) ∧
      ((∀ name, ¬Dict.contains (ofSpec mark baseUrl shared spec).bodyProperties name →
          Dict.get? inputs.parameters name = Dict.get? inputs'.parameters name) →
        request.url = request'.url) := by
  have hnames := names_parametersOf mark hbody hsorted
  have hnotOwn : ∀ name, Dict.contains (ofSpec mark baseUrl shared spec).bodyProperties name →
      ∀ p ∈ spec.parameters, p.location.isConfig = false →
        (p.binding mark).externalName ≠ name := by
    intro name hname p hp hlocation heq
    obtain ⟨w, hw⟩ := Option.isSome_iff_exists.mp hname
    exact hnames.not_own hw ⟨p, hp, hlocation, heq⟩
  refine ⟨?_, hnames.sorted.nodup_keys, hnames.perm_keys hsorted, hnotOwn, ?_, ?_⟩
  · intro w schema hmem
    obtain ⟨name, hname⟩ := hnames.exists_name_iff.mpr (Dict.contains_of_mem hmem)
    obtain ⟨schema', hmem', hleast⟩ := hnames.isLeastMarked hname
    -- A property has one schema.
    have hget := (Dict.get?_eq_some_iff hsorted).mpr hmem
    cases hget.symm.trans ((Dict.get?_eq_some_iff hsorted).mpr hmem')
    exact ⟨name, hname, hleast⟩
  · intro inputs request h
    obtain ⟨-, rfl⟩ := request_eq_ok_iff.mp h
    refine ⟨body_eq_none_iff hnames.sorted, fun v hv => ?_⟩
    rw [body_eq_bodyMembers] at hv
    split at hv
    next => cases hv
    next =>
      cases hv
      exact ⟨_, rfl, Dict.sorted_ofList _, fun w x =>
        get?_bodyMembers_iff hnames.sorted hnames.unique⟩
  · intro inputs inputs' request request' h h'
    obtain ⟨-, rfl⟩ := request_eq_ok_iff.mp h
    obtain ⟨-, rfl⟩ := request_eq_ok_iff.mp h'
    -- The names that the address is made of are those of parameters, which are not in the table.
    refine ⟨body_congr, fun hagree => url_congr fun b hb hlocation => hagree _ fun hname => ?_⟩
    obtain ⟨p, hp, rfl⟩ := List.mem_map.mp hb
    exact hnotOwn _ hname p hp hlocation rfl

/-- A body with two properties that go by one name. -/
def tagBody : Schema :=
  .object
    [("label", { types := ["string"], extensions := [("x-relay-name", .string "name")] }),
      ("name", .boolean)] []

/-- An operation with parameters that take this name, also with a mark. -/
def tagVolume : OperationSpec :=
  { id := "tagVolume", method := "post", path := "/volumes"
    parameters := [
      { name := "name", location := .query, schema := .string },
      { name := "req-name", location := .query, schema := .integer }]
    requestBody := some tagBody }

/-- Values for a parameter and for one of the properties. -/
def tagInputs : Inputs :=
  { parameters := [("name", .string "q"), ("req-req-req-name", .bool true)] }

/-- The marks add up, and the value under the longest name is the only one in the body. -/
theorem body_of_request_tagVolume :
    ∃ request members,
      (ofSpec "x-relay" "https://api" none tagVolume).request tagInputs = .ok request ∧
        request.url = "https://api/volumes?name=q" ∧ request.body = some (.object members) ∧
        Dict.get? members "name" = some (.bool true) ∧ Dict.get? members "label" = none := by
  have hsorted : Dict.Sorted tagBody.properties := by
    unfold Dict.Sorted
    decide +kernel
  have htable : (ofSpec "x-relay" "https://api" none tagVolume).bodyProperties =
      [("req-req-name", "label"), ("req-req-req-name", "name")] := by decide +kernel
  have hrequest := request_eq_ok_iff.mpr ⟨(by decide +kernel :
    (ofSpec "x-relay" "https://api" none tagVolume).missingPath? tagInputs = none), rfl⟩
  obtain ⟨-, -, -, -, hparts, -⟩ :=
    @body_of_request "x-relay" "https://api" none tagVolume tagBody rfl hsorted
  obtain ⟨hnone, hsome⟩ := hparts _ _ hrequest
  rw [htable] at hnone hsome
  obtain ⟨v, hv⟩ := Option.ne_none_iff_exists'.mp fun h =>
    absurd (hnone.mp h "req-req-req-name" "name" rfl) (Option.some_ne_none _)
  obtain ⟨members, rfl, -, hmember⟩ := hsome v hv
  refine ⟨_, members, hrequest, by decide +kernel, hv, ?_, ?_⟩
  · exact (hmember _ _).mpr ⟨"req-req-req-name", rfl, rfl⟩
  · refine Option.eq_none_iff_forall_ne_some.mpr fun x hx => ?_
    obtain ⟨name, hname, hvalue⟩ := (hmember _ _).mp hx
    rw [Dict.get?_cons] at hname
    split at hname
    next heq =>
      subst heq
      cases hvalue
    next =>
      rw [Dict.get?_cons] at hname
      split at hname
      next => exact absurd hname (by decide)
      next => cases hname

end Operation

end ApiCommand
