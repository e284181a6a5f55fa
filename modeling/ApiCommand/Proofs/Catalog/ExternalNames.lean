import ApiCommand.Proofs.Catalog.Body

/-!
# External names of inputs

An input is given its value under its external name. Properties of the body get names that no path
or query parameter has. Parameters keep the name that they or their schemas have, whatever others
are called, so two of them may share one. Then they share a value, and this is the only way in which
an input can be kept from having a value of its own (`isAssignable_iff`).
-/

namespace ApiCommand

namespace Operation

/-- Parameters of one kind with one external name are the same parameter. -/
def ParametersDiffer (mark : String) (spec : OperationSpec) : Prop :=
  ∀ p ∈ spec.parameters, ∀ q ∈ spec.parameters, p.location.isConfig = q.location.isConfig →
    (p.binding mark).externalName = (q.binding mark).externalName →
      p.location = q.location ∧ p.name = q.name

/-- Whatever values are wanted for the parameters and the properties of the body, there are inputs
for a request in which each of them has its own. -/
def IsAssignable (mark baseUrl : String) (shared : Option Schema) (spec : OperationSpec) : Prop :=
  ∀ (value : Location → String → Json) (member : String → Json), ∃ inputs request,
    (ofSpec mark baseUrl shared spec).request inputs = .ok request ∧
      (∀ p ∈ spec.parameters,
        valueOf inputs (p.binding mark) = some (value p.location p.name)) ∧
      ∀ w, Dict.contains (bodySchemas spec) w →
        request.body.bind (fun v => v.member? w) = some (member w)

variable {mark baseUrl : String} {shared : Option Schema} {spec : OperationSpec}

/-- Parameters of one kind that share a name share their value. -/
theorem valueOf_eq_of_externalName_eq {p q : ParameterSpec} (inputs : Inputs)
    (hkind : p.location.isConfig = q.location.isConfig)
    (hname : (p.binding mark).externalName = (q.binding mark).externalName) :
    valueOf inputs (p.binding mark) = valueOf inputs (q.binding mark) := by
  have hat : inputs.at p.location = inputs.at q.location := by
    rw [Inputs.at, Inputs.at, hkind]
  rw [valueOf, valueOf, hname]
  exact congrArg (fun d => Dict.get? d _) hat

/-- If each input can have a value of its own, then parameters differ in their names. -/
theorem IsAssignable.parametersDiffer (h : IsAssignable mark baseUrl shared spec) :
    ParametersDiffer mark spec := by
  intro p hp q hq hkind hname
  -- Ask for null at the place of one of them and for true everywhere else.
  obtain ⟨inputs, -, -, hvalues, -⟩ := h
    (fun l w => if l = p.location ∧ w = p.name then .null else .bool true) (fun _ => .null)
  have heq := (hvalues p hp).symm.trans
    ((valueOf_eq_of_externalName_eq inputs hkind hname).trans (hvalues q hq))
  by_contra hdiffer
  rw [if_pos ⟨rfl, rfl⟩, if_neg fun h => hdiffer ⟨h.1.symm, h.2.symm⟩] at heq
  cases heq

/-- The values that are wanted for the parameters of one kind, by external name. -/
def wantedEntries (mark : String) (spec : OperationSpec) (value : Location → String → Json)
    (isConfig : Bool) : List (String × Json) :=
  (spec.parameters.filter fun p => p.location.isConfig == isConfig).map fun p =>
    ((p.binding mark).externalName, value p.location p.name)

/-- The entries are the wanted values of the parameters of the kind, under their external names. -/
theorem mem_wantedEntries_iff {value : Location → String → Json} {isConfig : Bool} {name : String}
    {v : Json} :
    (name, v) ∈ wantedEntries mark spec value isConfig ↔
      ∃ p ∈ spec.parameters, p.location.isConfig = isConfig ∧
        (p.binding mark).externalName = name ∧ value p.location p.name = v := by
  simp [wantedEntries, and_assoc]

/-- If parameters differ in their names, only one value is wanted under each of these. -/
theorem ParametersDiffer.eq_of_mem_wantedEntries (h : ParametersDiffer mark spec)
    {value : Location → String → Json} {p : ParameterSpec} (hp : p ∈ spec.parameters) {v : Json}
    (hv : ((p.binding mark).externalName, v) ∈
      wantedEntries mark spec value p.location.isConfig) :
    v = value p.location p.name := by
  obtain ⟨q, hq, hkind, hname, rfl⟩ := mem_wantedEntries_iff.mp hv
  obtain ⟨hlocation, hwire⟩ := h q hq p hp hkind hname
  rw [hlocation, hwire]

/-- The inputs in which each parameter and each property has the value that is wanted for it. -/
def wantedInputs (mark : String) (spec : OperationSpec) (value : Location → String → Json)
    (member : String → Json) : Inputs :=
  { parameters := Dict.ofList (wantedEntries mark spec value false ++
      (parametersOf mark spec).wireNames.map fun e => (e.1, member e.2))
    configs := Dict.ofList (wantedEntries mark spec value true) }

/-- If parameters differ in their names, each has the value that is wanted for it. -/
theorem ParametersDiffer.valueOf_wantedInputs (h : ParametersDiffer mark spec)
    (hsorted : Dict.Sorted (bodySchemas spec)) (value : Location → String → Json)
    (member : String → Json) {p : ParameterSpec} (hp : p ∈ spec.parameters) :
    valueOf (wantedInputs mark spec value member) (p.binding mark) =
      some (value p.location p.name) := by
  have hentry : ((p.binding mark).externalName, value p.location p.name) ∈
      wantedEntries mark spec value p.location.isConfig :=
    mem_wantedEntries_iff.mpr ⟨p, hp, rfl, rfl, rfl⟩
  have hunique : ∀ v, ((p.binding mark).externalName, v) ∈
      wantedEntries mark spec value p.location.isConfig → v = value p.location p.name :=
    fun _ => h.eq_of_mem_wantedEntries hp
  show Dict.get? ((wantedInputs mark spec value member).at p.location) _ = _
  rw [Inputs.at]
  cases hkind : p.location.isConfig with
  | true =>
    rw [hkind] at hentry hunique
    exact Dict.get?_ofList_eq_some hentry hunique
  | false =>
    rw [hkind] at hentry hunique
    refine Dict.get?_ofList_eq_some (List.mem_append_left _ hentry) fun v hv => ?_
    refine hunique v ((List.mem_append.mp hv).resolve_right fun hproperty => ?_)
    -- The name of a property is the name of no parameter.
    obtain ⟨e, he, heq⟩ := List.mem_map.mp hproperty
    have hnames := names_bodySchemas mark hsorted
    refine hnames.not_own ((Dict.get?_eq_some_iff hnames.sorted).mpr he) ⟨p, hp, hkind, ?_⟩
    exact (congrArg Prod.fst heq).symm

/-- Each property of the body has the value that is wanted for it. -/
theorem member?_body_wantedInputs (hsorted : Dict.Sorted (bodySchemas spec))
    (value : Location → String → Json) (member : String → Json) {w : String}
    (hw : Dict.contains (bodySchemas spec) w) :
    ((ofSpec mark baseUrl shared spec).body (wantedInputs mark spec value member)).bind
      (fun v => v.member? w) = some (member w) := by
  have hnames := names_bodySchemas mark hsorted
  obtain ⟨name, hname⟩ := hnames.exists_forall_get?_iff hw
  have hget := (hname name).mpr rfl
  rw [member?_body hnames.sorted hname]
  refine Dict.get?_ofList_eq_some (List.mem_append_right _ (List.mem_map.mpr
    ⟨(name, w), (Dict.get?_eq_some_iff hnames.sorted).mp hget, rfl⟩)) fun v hv => ?_
  -- No parameter has the name of a property, and the table has one entry for the name.
  rcases List.mem_append.mp hv with hparameter | hproperty
  · obtain ⟨p, hp, hkind, hown, -⟩ := mem_wantedEntries_iff.mp hparameter
    exact absurd ⟨p, hp, hkind, hown⟩ (hnames.not_own hget)
  · obtain ⟨⟨other, w'⟩, he, heq⟩ := List.mem_map.mp hproperty
    cases heq
    cases hget.symm.trans ((Dict.get?_eq_some_iff hnames.sorted).mpr he)
    rfl

/-- A property of the body never has the external name of a path or query parameter. Each input can
be given a value of its own if and only if no two parameters of one kind share an external name. -/
theorem isAssignable_iff (hsorted : Dict.Sorted (bodySchemas spec)) :
    (∀ name w, Dict.get? (ofSpec mark baseUrl shared spec).bodyProperties name = some w →
      ∀ p ∈ spec.parameters, p.location.isConfig = false →
        (p.binding mark).externalName ≠ name) ∧
    (IsAssignable mark baseUrl shared spec ↔ ParametersDiffer mark spec) := by
  refine ⟨fun name w hname p hp hkind heq => ?_, IsAssignable.parametersDiffer,
    fun hdiffer value member => ?_⟩
  · exact (names_bodySchemas mark hsorted).not_own hname ⟨p, hp, hkind, heq⟩
  · refine ⟨wantedInputs mark spec value member, _, request_eq_ok_iff.mpr ⟨?_, rfl⟩,
      fun p hp => hdiffer.valueOf_wantedInputs hsorted value member hp,
      fun w hw => member?_body_wantedInputs hsorted value member hw⟩
    -- The path parameters are among those that have the values wanted for them.
    refine missingPath?_eq_none_iff.mpr fun b hb _ => ?_
    obtain ⟨p, hp, rfl⟩ := List.mem_map.mp hb
    exact ⟨_, hdiffer.valueOf_wantedInputs hsorted value member hp⟩

/-- A property whose name and whose name with a mark are both taken can still be given a value. -/
theorem isAssignable_iff_tagVolume :
    IsAssignable "x-relay" "https://api" none tagVolume ∧
      ∃ inputs request,
        (ofSpec "x-relay" "https://api" none tagVolume).request inputs = .ok request ∧
          (∀ p ∈ tagVolume.parameters,
            valueOf inputs (p.binding "x-relay") = some (.string p.name)) ∧
          request.body.bind (fun v => v.member? "name") = some (.bool true) := by
  have hsorted : Dict.Sorted (bodySchemas tagVolume) := by
    unfold Dict.Sorted
    decide +kernel
  have hdiffer : ParametersDiffer "x-relay" tagVolume := by
    intro p hp q hq _ hname
    simp only [tagVolume, List.mem_cons, List.not_mem_nil, or_false] at hp hq
    rcases hp with rfl | rfl <;> rcases hq with rfl | rfl
    · exact ⟨rfl, rfl⟩
    · exact absurd hname (by decide +kernel)
    · exact absurd hname (by decide +kernel)
    · exact ⟨rfl, rfl⟩
  have hassign := (@isAssignable_iff "x-relay" "https://api" none tagVolume hsorted).2.mpr hdiffer
  obtain ⟨inputs, request, hrequest, hparameters, hbody⟩ :=
    hassign (fun _ w => .string w) (fun _ => .bool true)
  exact ⟨hassign, inputs, request, hrequest, hparameters, hbody "name" (by decide +kernel)⟩

/-- An operation with parameters of one name in the path and in the query. -/
def getItem : OperationSpec :=
  { id := "getItem", method := "get", path := "/items/{id}"
    parameters := [
      { name := "id", location := .path, schema := .string },
      { name := "id", location := .query, schema := .string }] }

/-- The value for the path is also sent in the query, and no inputs can prevent this. -/
theorem externalName_eq_getItem :
    (∃ p ∈ getItem.parameters, ∃ q ∈ getItem.parameters,
      p.location = .path ∧ q.location = .query ∧
        (p.binding "x-relay").externalName = (q.binding "x-relay").externalName) ∧
      ¬ IsAssignable "x-relay" "https://api" none getItem ∧
      ∃ request, (ofSpec "x-relay" "https://api" none getItem).request
          { parameters := [("id", .string "p")] } = .ok request ∧
        request.url = "https://api/items/p?id=p" := by
  have hpath : ({ name := "id", location := .path, schema := .string } : ParameterSpec) ∈
      getItem.parameters := List.mem_cons_self
  have hquery : ({ name := "id", location := .query, schema := .string } : ParameterSpec) ∈
      getItem.parameters := List.mem_cons_of_mem _ List.mem_cons_self
  refine ⟨⟨_, hpath, _, hquery, rfl, rfl, by decide +kernel⟩, fun hassign => ?_,
    _, request_eq_ok_iff.mpr ⟨by decide +kernel, rfl⟩, by decide +kernel⟩
  have hsame := hassign.parametersDiffer _ hpath _ hquery rfl (by decide +kernel)
  exact absurd hsame.1 (by decide)

end Operation

end ApiCommand
