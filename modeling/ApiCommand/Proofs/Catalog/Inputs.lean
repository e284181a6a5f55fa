import ApiCommand.Catalog.Request
import ApiCommand.Proofs.Catalog.Operation
import ApiCommand.Proofs.Command.Call

/-!
# The inputs of prepared calls

Flags are validated one at a time, but the inputs of a call of an operation of a catalog, once it is
prepared, conform to the schemas of the operation as a whole (`problems_of_prepare`). In particular
no path parameter is missing, so that the request can be built (`request_of_prepare`).
-/

namespace ApiCommand

/-- The values of one kind. -/
def Inputs.ofKind (inputs : Inputs) (isConfig : Bool) : Dict Json :=
  if isConfig then inputs.configs else inputs.parameters

namespace Operation

section Prepared

variable {host : Host} {source : ValueSource} {mark baseUrl : String} {shared : Option Schema}
  {spec : OperationSpec} {showHidden : Bool} {args : List String} {call : Call}
  (h : Call.prepare host source (ofSpec mark baseUrl shared spec).descriptor showHidden args =
    .ok call)

include h

/-- The inputs of a prepared call are the values of its flags in the end, and there are no issues
with these. -/
theorem inputs_of_prepare :
    call.flags.rootPlaces.map Place.declaration =
        FlagSet.declarationsOf (ofSpec mark baseUrl shared spec).descriptor ∧
      call.flags.resolutionIssues source = [] ∧
      ∀ isConfig, call.inputs.ofKind isConfig = call.flags.finalValues source isConfig := by
  obtain ⟨start, hflags, hreachable, hresolve⟩ := Call.reachable_of_prepare h
  have hdeclares := FlagSet.declares_flagsFor hflags
  have hwellFormed := wellFormed_ofSpec mark baseUrl shared spec
  rw [hdeclares.resolve_eq hwellFormed hreachable (FlagSet.quiet_of_resolve hresolve)] at hresolve
  split at hresolve
  next hnone =>
    refine ⟨(hdeclares.reached hreachable).2.2, hnone, fun isConfig => ?_⟩
    rw [← Except.ok.inj hresolve]
    cases isConfig <;> rfl
  next => cases hresolve

/-- Every required name has a value. -/
theorem contains_ofKind_of_required (isConfig : Bool) {name : String}
    (hname : name ∈ (inputProperties mark shared spec isConfig).required) :
    Dict.contains (call.inputs.ofKind isConfig) name := by
  obtain ⟨hplaces, hnone, hvalues⟩ := inputs_of_prepare h
  have hlawful := lawful_inputProperties mark shared spec isConfig
  obtain ⟨schema, hmem⟩ := Dict.exists_mem_of_contains (hlawful.contains_of_required name hname)
  rw [hvalues]
  refine FlagSet.contains_finalValues hplaces hnone (e := (name, schema)) ?_ ?_
  · rw [inputSchema_ofSpec]
    exact hmem
  · rw [inputSchema_ofSpec]
    exact List.contains_iff_mem.mpr hname

/-- The values of one kind conform to their schema as an object. -/
theorem problems_ofKind (isConfig : Bool) :
    (inputProperties mark shared spec isConfig).schema.problems
      (.object (call.inputs.ofKind isConfig)) = [] := by
  obtain ⟨hplaces, hnone, hvalues⟩ := inputs_of_prepare h
  have hlawful := lawful_inputProperties mark shared spec isConfig
  refine (Schema.problems_object_eq_nil_iff _ _ _).mpr
    ⟨fun name hname => contains_ofKind_of_required h isConfig hname, fun e he => ?_⟩
  rw [hvalues] at he
  obtain ⟨schema, hmem, hproblems⟩ := FlagSet.conforms_of_mem_finalValues hplaces hnone he
  rw [inputSchema_ofSpec] at hmem
  exact ⟨schema, (Dict.get?_eq_some_iff hlawful.sorted).mpr hmem, hproblems⟩

end Prepared

/-- The inputs of a prepared call conform to the schemas of the operation: all required ones are
there, no others than the declared ones are, and each conforms to the schema of its property. -/
theorem problems_of_prepare {host : Host} {source : ValueSource} {mark baseUrl : String}
    {shared : Option Schema} {spec : OperationSpec} {showHidden : Bool} {args : List String}
    {call : Call}
    (h : Call.prepare host source (ofSpec mark baseUrl shared spec).descriptor showHidden args =
      .ok call) :
    (ofSpec mark baseUrl shared spec).parameters.problems (.object call.inputs.parameters) = [] ∧
      (ofSpec mark baseUrl shared spec).configs.problems (.object call.inputs.configs) = [] :=
  ⟨problems_ofKind h false, problems_ofKind h true⟩

/-- An operation with a path parameter that users know by another name, and with a property of the
body that is called like a query parameter. -/
def createVolume : OperationSpec :=
  { id := "createVolume", method := "post", path := "/projects/{project}/volumes"
    parameters := [
      { name := "project", location := .path
        schema := { types := ["string"], extensions := [("x-relay-name", .string "team")] } },
      { name := "name", location := .query, schema := .string },
      { name := "Zone", location := .header, schema := .string }]
    requestBody := some (.object [("name", .string), ("size", .integer)] ["name"]) }

/-- A team and the name in the body are required, and both are given. -/
theorem problems_of_prepare_createVolume :
    ∃ call, Call.prepare Host.bare (fun _ => none)
        (ofSpec "x-relay" "https://api" none createVolume).descriptor false
        ["--team=t", "--req-name=n", "--size=3"] = .ok call ∧
      (ofSpec "x-relay" "https://api" none createVolume).parameters.problems
        (.object call.inputs.parameters) = [] ∧
      (ofSpec "x-relay" "https://api" none createVolume).configs.problems
        (.object call.inputs.configs) = [] := by
  have hrun : (match Call.prepare Host.bare (fun _ => none)
      (ofSpec "x-relay" "https://api" none createVolume).descriptor false
      ["--team=t", "--req-name=n", "--size=3"] with
    | .error _ => false
    | .ok _ => true) = true := by decide +kernel
  split at hrun
  next => cases hrun
  next call hcall => exact ⟨call, hcall, problems_of_prepare hcall⟩

/-- The request for a prepared call can be built: each path parameter has a value under its external
name, whatever other inputs of the operation are called. -/
theorem request_of_prepare {host : Host} {source : ValueSource} {mark baseUrl : String}
    {shared : Option Schema} {spec : OperationSpec} {showHidden : Bool} {args : List String}
    {call : Call}
    (h : Call.prepare host source (ofSpec mark baseUrl shared spec).descriptor showHidden args =
      .ok call) :
    ∃ request, (ofSpec mark baseUrl shared spec).request call.inputs = .ok request := by
  have hnone : (ofSpec mark baseUrl shared spec).missingPath? call.inputs = none := by
    refine List.find?_eq_none.mpr fun b hb => ?_
    obtain ⟨p, hp, rfl⟩ := List.mem_map.mp hb
    by_cases hpath : p.location = .path
    · have hvalue := contains_ofKind_of_required h false
        (externalName_mem_required mark spec hp hpath)
      have hat : call.inputs.at (p.binding mark).location = call.inputs.ofKind false := by
        rw [ParameterSpec.binding, hpath]
        rfl
      rw [Dict.contains, Option.isSome_iff_ne_none] at hvalue
      simp [valueOf, hat, hvalue]
    · simp [ParameterSpec.binding, hpath]
  exact ⟨_, by rw [request, hnone]⟩

/-- The path parameter and the renamed property of the body are given behind flags of their own. -/
theorem request_of_prepare_createVolume :
    ∃ call request, Call.prepare Host.bare (fun _ => none)
        (ofSpec "x-relay" "https://api" none createVolume).descriptor true
        ["--req-name=n", "--team", "t"] = .ok call ∧
      (ofSpec "x-relay" "https://api" none createVolume).request call.inputs = .ok request := by
  have hrun : (match Call.prepare Host.bare (fun _ => none)
      (ofSpec "x-relay" "https://api" none createVolume).descriptor true
      ["--req-name=n", "--team", "t"] with
    | .error _ => false
    | .ok _ => true) = true := by decide +kernel
  split at hrun
  next => cases hrun
  next call hcall =>
    obtain ⟨request, hrequest⟩ := request_of_prepare hcall
    exact ⟨call, request, hcall, hrequest⟩

end Operation

end ApiCommand
