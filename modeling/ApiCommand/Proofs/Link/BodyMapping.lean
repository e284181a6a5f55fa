import ApiCommand.Proofs.Catalog.BodyNames
import ApiCommand.Proofs.Catalog.Request
import ApiCommand.Proofs.Json.PointerText
import ApiCommand.Proofs.Link.Provenance

/-!
# Pointers of links and the body

The pointers of a link lead into the parameters of the operation, which are known by their external
names. A value gets into the body if its pointer names the external name of a property, and only the
catalog says which one that is (`member?_of_prepare`). The name that the property has in the body
does not do if a parameter is called like it (`body_of_prepare_copyVolume`).
-/

namespace ApiCommand

/-- A value at a pointer of one token is the parameter that the token names, and counts before all
other values. -/
theorem Link.get?_parameters_of_pointer {l : Link} {op : Operation} {schema : Schema} {r : Result}
    {additional : Dict Json} {inputs : Inputs} {token expression : String} {v : Json}
    (hpointer : l.bodyParameters op.extensionMark = [("/" ++ Pointer.escape token, expression)])
    (hvalue : Formula.resolve (.string expression) r = some v)
    (h : l.inputs op schema r additional = .ok inputs) (name : String) :
    Dict.get? inputs.parameters name =
      if token = name then some v
      else (Dict.get? (l.parameterInputs op r).parameters name).or
        (Dict.get? additional name) := by
  obtain ⟨written, hwritten, -, hget⟩ := get?_parameters_of_inputs h
  rw [hpointer, Pointer.slash_append_escape] at hwritten
  simp only [writeBody, hvalue, Pointer.parse?_text, Json.write, Json.writeBelow, Except.ok.injEq,
    Json.object.injEq] at hwritten
  rw [hget, ← hwritten, Dict.get?_insert]
  split <;> simp

namespace LinkMemo

variable {mark baseUrl : String} {shared : Option Schema} {spec : OperationSpec}

/-- A property of the body has one external name. A pointer to this name puts its value into the
body, and a pointer to any other name leaves the property to the parameters of the link and to what
the caller adds. -/
theorem member?_of_prepare {body : Schema} {w : String} (hbody : spec.requestBody = some body)
    (hsorted : Dict.Sorted body.properties) (hw : Dict.contains body.properties w) :
    ∃ name,
      (∀ other, Dict.get? (Operation.ofSpec mark baseUrl shared spec).bodyProperties other =
        some w ↔ other = name) ∧
      ∀ (m : LinkMemo) (c : Catalog) (r : Result) (additional : Dict Json) (inputs : Inputs)
        (request : Request) (token expression : String) (v : Json),
        m.target? c = some (.ofSpec mark baseUrl shared spec) →
        m.link.bodyParameters mark = [("/" ++ Pointer.escape token, expression)] →
        Formula.resolve (.string expression) r = some v →
        m.prepare c r additional = .ok inputs →
        (Operation.ofSpec mark baseUrl shared spec).request inputs = .ok request →
        request.body.bind (fun v => v.member? w) =
          if token = name then some v
          else (Dict.get? (m.link.parameterInputs (.ofSpec mark baseUrl shared spec) r).parameters
            name).or (Dict.get? additional name) := by
  -- The table of external names is a bijection, and the pointer goes by these names.
  have hnames := Operation.names_parametersOf mark hbody hsorted
  obtain ⟨name, hunique⟩ := hnames.exists_forall_get?_iff hw
  refine ⟨name, hunique, ?_⟩
  intro m c r additional inputs request token expression v htarget hpointer hvalue h hrequest
  rw [prepare_eq_inputs htarget] at h
  obtain ⟨-, rfl⟩ := Operation.request_eq_ok_iff.mp hrequest
  rw [Operation.member?_body hnames.sorted hunique,
    Link.get?_parameters_of_pointer hpointer hvalue h]

/-- An operation with a query parameter that is called like a property of the body. -/
def copyVolume : OperationSpec :=
  { id := "copyVolume", method := "post", path := "/copies"
    parameters := [{ name := "name", location := .query, schema := .string }]
    requestBody := some (.object [("name", .string)] []) }

/-- A link to it with a pointer for the identifier of what was created. -/
def copyLink (pointer : String) : Link :=
  { name := "copy", operationId := some "copyVolume"
    extensions := [
      ("x-relay-requestBodyParameters", .object [(pointer, .string "$response.body#/id")])] }

/-- The external name of the property has a mark, and with the mark the pointer leads to it. -/
theorem member?_of_prepare_copyVolume :
    ∃ inputs request v,
      LinkMemo.prepare { link := copyLink "/req-name" }
          { name := "volumes", operations := [.ofSpec "x-relay" "https://api" none copyVolume] }
          created [] = .ok inputs ∧
        (Operation.ofSpec "x-relay" "https://api" none copyVolume).request inputs = .ok request ∧
        Formula.resolve (.string "$response.body#/id") created = some v ∧
        request.body.bind (fun v => v.member? "name") = some v := by
  have hrun : (match LinkMemo.prepare { link := copyLink "/req-name" }
        { name := "volumes", operations := [.ofSpec "x-relay" "https://api" none copyVolume] }
        created [] with
      | .error _ => false
      | .ok inputs =>
        match (Operation.ofSpec "x-relay" "https://api" none copyVolume).request inputs with
        | .error _ => false
        | .ok _ => true) = true := by decide +kernel
  have hsorted : Dict.Sorted (Schema.object [("name", .string)] []).properties :=
    List.pairwise_singleton _ _
  have hname : Dict.get? (Operation.ofSpec "x-relay" "https://api" none copyVolume).bodyProperties
      "req-name" = some "name" := by decide +kernel
  obtain ⟨v, hv⟩ : ∃ v, Formula.resolve (.string "$response.body#/id") created = some v :=
    Option.isSome_iff_exists.mp (by decide +kernel)
  split at hrun
  next => cases hrun
  next inputs hinputs =>
    split at hrun
    next => cases hrun
    next request hrequest =>
      obtain ⟨name, hunique, hmember⟩ := @member?_of_prepare "x-relay" "https://api" none copyVolume
        _ "name" rfl hsorted (by decide +kernel)
      refine ⟨inputs, request, v, hinputs, hrequest, hv, ?_⟩
      rw [hmember _ _ created [] inputs request "req-name" _ v rfl rfl hv hinputs hrequest]
      exact if_pos ((hunique "req-name").mp hname)

/-- Without the mark the pointer leads to the query parameter, and there is no body. -/
theorem body_of_prepare_copyVolume :
    ∃ inputs request v,
      (copyVolume.requestBody.any fun body => Dict.contains body.properties "name") ∧
        (copyLink "/name").bodyParameters "x-relay" =
          [("/" ++ Pointer.escape "name", "$response.body#/id")] ∧
        LinkMemo.prepare { link := copyLink "/name" }
          { name := "volumes", operations := [.ofSpec "x-relay" "https://api" none copyVolume] }
          created [] = .ok inputs ∧
        (Operation.ofSpec "x-relay" "https://api" none copyVolume).request inputs = .ok request ∧
        Formula.resolve (.string "$response.body#/id") created = some v ∧
        request.url = "https://api/copies?name=v1" ∧ request.body.isNone := by
  have hrun : (match LinkMemo.prepare { link := copyLink "/name" }
        { name := "volumes", operations := [.ofSpec "x-relay" "https://api" none copyVolume] }
        created [] with
      | .error _ => false
      | .ok inputs =>
        match (Operation.ofSpec "x-relay" "https://api" none copyVolume).request inputs with
        | .error _ => false
        | .ok request =>
          request.url == "https://api/copies?name=v1" && request.body.isNone) = true := by
    decide +kernel
  obtain ⟨v, hv⟩ : ∃ v, Formula.resolve (.string "$response.body#/id") created = some v :=
    Option.isSome_iff_exists.mp (by decide +kernel)
  split at hrun
  next => cases hrun
  next inputs hinputs =>
    split at hrun
    next => cases hrun
    next request hrequest =>
      rw [Bool.and_eq_true, beq_iff_eq] at hrun
      exact ⟨inputs, request, v, by decide +kernel, by decide +kernel, hinputs, hrequest, hv, hrun⟩

end LinkMemo

end ApiCommand
