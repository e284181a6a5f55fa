import ApiCommand.Link.Memo
import ApiCommand.Proofs.Json.Writing
import ApiCommand.Proofs.Link.Routing
import Mathlib.Data.List.Basic

/-!
# Where the inputs of a followed link come from

The inputs of the operation that a link leads to are put together from the parameters of the link,
the values at its pointers, values that the caller adds, and configs of the call that the link starts
from. `provenance_of_prepare` says which of them every name gets its value from, and that neither
what the caller adds nor the inputs of the first call have an influence beyond that.

The link's parameters and pointers are run through one after another (`value?_putParameter`,
`write_object`), so each run lemma says what the entries that were seen so far have written.
-/

namespace ApiCommand

namespace Link

/-! ## Parameters of the link -/

section Parameters

variable (op : Operation) (r : Result) (slot : Slot)

/-- An entry goes to the slot and has a value. -/
def Fills (entries : Dict Json) : Prop :=
  ∃ e ∈ entries, op.slot? e.1 = some slot ∧ (Formula.resolve e.2 r).isSome

/-- Of the entries that go to the slot and have a value, the last one by key has the value `v`. -/
def LastValue (entries : Dict Json) (v : Json) : Prop :=
  ∃ e ∈ entries, op.slot? e.1 = some slot ∧ Formula.resolve e.2 r = some v ∧
    ∀ e' ∈ entries, e.1 < e'.1 → op.slot? e'.1 = some slot → Formula.resolve e'.2 r = none

variable {op r slot}

theorem fills_nil : ¬Fills op r slot [] := by
  simp [Fills]

/-- An entry fills a slot, or one behind it does. -/
theorem fills_cons {e : String × Json} {rest : Dict Json} :
    Fills op r slot (e :: rest) ↔
      (op.slot? e.1 = some slot ∧ (Formula.resolve e.2 r).isSome) ∨ Fills op r slot rest := by
  simp [Fills]

/-- An entry in front, which has the least key, does not count if a later one has a value. -/
theorem LastValue.cons {e : String × Json} {rest : Dict Json} {v : Json}
    (hsorted : Dict.Sorted (e :: rest)) (h : LastValue op r slot rest v) :
    LastValue op r slot (e :: rest) v := by
  obtain ⟨e', he', hslot, hvalue, hlast⟩ := h
  refine ⟨e', List.mem_cons_of_mem _ he', hslot, hvalue, fun e'' he'' hlt => ?_⟩
  rcases List.mem_cons.mp he'' with rfl | hrest
  · exact absurd hlt (String.lt_asymm ((Dict.sorted_cons.mp hsorted).1 e' he'))
  · exact hlast e'' hrest hlt

/-- An entry in front counts if no later one has a value. -/
theorem lastValue_head {e : String × Json} {rest : Dict Json} {v : Json}
    (hslot : op.slot? e.1 = some slot) (hvalue : Formula.resolve e.2 r = some v)
    (hrest : ¬Fills op r slot rest) : LastValue op r slot (e :: rest) v := by
  refine ⟨e, List.mem_cons_self, hslot, hvalue, fun e' he' hlt hslot' => ?_⟩
  rcases List.mem_cons.mp he' with rfl | hmem
  · exact absurd hlt (String.lt_irrefl _)
  · rw [← Option.not_isSome_iff_eq_none]
    exact fun hsome => hrest ⟨e', hmem, hslot', hsome⟩

/-- One entry changes its own slot only. -/
theorem value?_putParameter (inputs : Inputs) (e : String × Json) :
    (putParameter op r inputs e).value? slot =
      (if op.slot? e.1 = some slot then Formula.resolve e.2 r else none).or
        (inputs.value? slot) := by
  unfold putParameter
  cases Formula.resolve e.2 r with
  | none => simp
  | some v =>
    cases op.slot? e.1 with
    | none => simp
    | some other =>
      by_cases heq : other = slot <;> simp [Inputs.value?_put, heq]

/-- A slot that no entry fills is as it was. -/
theorem value?_foldl_of_not_fills {entries : Dict Json} (h : ¬Fills op r slot entries)
    (inputs : Inputs) :
    (entries.foldl (putParameter op r) inputs).value? slot = inputs.value? slot := by
  induction entries generalizing inputs with
  | nil => rfl
  | cons e rest ih =>
    rw [fills_cons, not_or] at h
    rw [List.foldl_cons, ih h.2, value?_putParameter]
    split
    next hslot =>
      have hnone : Formula.resolve e.2 r = none := by
        rw [← Option.not_isSome_iff_eq_none]
        exact fun hsome => h.1 ⟨hslot, hsome⟩
      rw [hnone, Option.none_or]
    next => rw [Option.none_or]

/-- A slot that entries fill has the value of the last one of them. -/
theorem value?_foldl_of_fills {entries : Dict Json} (hsorted : Dict.Sorted entries)
    (h : Fills op r slot entries) (inputs : Inputs) :
    ∃ v, LastValue op r slot entries v ∧
      (entries.foldl (putParameter op r) inputs).value? slot = some v := by
  induction entries generalizing inputs with
  | nil => exact absurd h fills_nil
  | cons e rest ih =>
    by_cases hrest : Fills op r slot rest
    · obtain ⟨v, hlast, hvalue⟩ :=
        ih (Dict.sorted_cons.mp hsorted).2 hrest (putParameter op r inputs e)
      exact ⟨v, hlast.cons hsorted, hvalue⟩
    · -- The entry in front is the only one that fills the slot.
      obtain ⟨hslot, hsome⟩ := (fills_cons.mp h).resolve_right hrest
      obtain ⟨v, hv⟩ := Option.isSome_iff_exists.mp hsome
      refine ⟨v, lastValue_head hslot hv hrest, ?_⟩
      rw [List.foldl_cons, value?_foldl_of_not_fills hrest, value?_putParameter, if_pos hslot, hv,
        Option.some_or]

/-- A slot has a value in the end if it had one or an entry fills it. -/
theorem isSome_value?_foldl (entries : Dict Json) (inputs : Inputs) :
    ((entries.foldl (putParameter op r) inputs).value? slot).isSome ↔
      Fills op r slot entries ∨ (inputs.value? slot).isSome := by
  induction entries generalizing inputs with
  | nil => simp [fills_nil]
  | cons e rest ih =>
    rw [List.foldl_cons, ih, value?_putParameter, fills_cons, Option.isSome_or, Bool.or_eq_true]
    by_cases hslot : op.slot? e.1 = some slot
    · simp only [hslot, if_true, true_and]
      tauto
    · simp [hslot]

/-- The parameters of a link give a slot a value exactly if one of them fills it. -/
theorem isSome_value?_parameterInputs (l : Link) :
    ((l.parameterInputs op r).value? slot).isSome ↔ Fills op r slot l.parameters := by
  rw [parameterInputs, isSome_value?_foldl]
  cases slot <;> simp [Inputs.value?]

end Parameters

/-! ## Pointers of the link -/

/-- An entry has a value and its pointer reaches the parameter. -/
def Maps (r : Result) (entries : List (String × String)) (name : String) : Prop :=
  ∃ e ∈ entries, ∃ tokens item, Pointer.parse? e.1 = some tokens ∧
    Formula.resolve (.string e.2) r = some item ∧ Pointer.Reaches tokens item name

/-- An entry reaches a parameter, or one behind it does. -/
theorem maps_cons {r : Result} {e : String × String} {rest : List (String × String)}
    {name : String} :
    Maps r (e :: rest) name ↔
      (∃ tokens item, Pointer.parse? e.1 = some tokens ∧
        Formula.resolve (.string e.2) r = some item ∧ Pointer.Reaches tokens item name) ∨
      Maps r rest name := by
  simp [Maps]

/-- An entry is skipped if its expression has no value. Otherwise its pointer can be read, and the
value is written before the others. -/
theorem writeBody_cons_eq_ok_iff {r : Result} {e : String × String} {rest : List (String × String)}
    {v w : Json} :
    writeBody r (e :: rest) v = .ok w ↔
      (Formula.resolve (.string e.2) r = none ∧ writeBody r rest v = .ok w) ∨
        ∃ item tokens u, Formula.resolve (.string e.2) r = some item ∧
          Pointer.parse? e.1 = some tokens ∧ v.write tokens item = .ok u ∧
          writeBody r rest u = .ok w := by
  obtain ⟨pointer, expression⟩ := e
  rw [writeBody]
  cases Formula.resolve (.string expression) r with
  | none => simp
  | some item =>
    cases Pointer.parse? pointer with
    | none => simp
    | some tokens =>
      cases hwrite : v.write tokens item <;> simp [hwrite]

/-- The members of an object after values were written at pointers are those that were there and
those that the pointers reach. The others are as they were. -/
theorem writeBody_object {r : Result} {entries : List (String × String)} {members : Dict Json}
    {v : Json} (h : writeBody r entries (.object members) = .ok v) :
    ∃ written, v = .object written ∧
      (∀ name, Dict.contains written name ↔ Dict.contains members name ∨ Maps r entries name) ∧
      ∀ name, ¬Maps r entries name → Dict.get? written name = Dict.get? members name := by
  induction entries generalizing members with
  | nil =>
    cases h
    exact ⟨members, rfl, by simp [Maps], fun _ _ => rfl⟩
  | cons e rest ih =>
    obtain ⟨hnone, h⟩ | ⟨item, tokens, v', hitem, htokens, hwrite, h⟩ :=
      writeBody_cons_eq_ok_iff.mp h
    · -- An entry without a value is skipped, and reaches nothing.
      obtain ⟨written, rfl, hcontains, hget⟩ := ih h
      have hskip : ∀ name, Maps r (e :: rest) name ↔ Maps r rest name := by
        intro name
        simp [maps_cons, hnone]
      exact ⟨written, rfl, by simpa [hskip] using hcontains, by simpa [hskip] using hget⟩
    · -- Otherwise the entry writes one member, and the rest starts from there.
      obtain ⟨between, rfl, hcontains, hget⟩ := Json.write_object hwrite
      obtain ⟨written, rfl, hcontains', hget'⟩ := ih h
      have hstep : ∀ name, Maps r (e :: rest) name ↔
          Pointer.Reaches tokens item name ∨ Maps r rest name := by
        intro name
        simp [maps_cons, hitem, htokens]
      refine ⟨written, rfl, fun name => ?_, fun name hname => ?_⟩
      · rw [hcontains', hcontains, hstep, or_assoc]
      · rw [hstep, not_or] at hname
        rw [hget' name hname.2, hget name hname.1]

/-! ## What is added and what is taken over -/

/-- Added values count for names that are not taken. -/
theorem get?_fill (d additional : Dict Json) (name : String) :
    Dict.get? (fill d additional) name = (Dict.get? d name).or (Dict.get? additional name) := by
  unfold fill
  induction additional generalizing d with
  | nil => simp
  | cons e rest ih =>
    rw [List.foldl_cons, ih, Dict.get?_insertNew, Dict.get?_cons, Option.or_assoc]
    split <;> simp

/-- Configs that are not set yet are those of the source, as far as the target has them. -/
theorem get?_carryOver (op : Operation) (r : Result) (configs : Dict Json) (name : String) :
    Dict.get? (carryOver op r configs) name =
      (Dict.get? configs name).or
        (if Dict.contains op.configs.properties name then
          Dict.get? r.source.inputs.configs name
        else none) := by
  -- The declared names are gone through one by one, and the first that has a value stays.
  have hkeys : Dict.contains op.configs.properties name ↔
      name ∈ Dict.keys op.configs.properties := by
    simp [Dict.contains_iff_exists_mem, Dict.keys]
  simp only [hkeys]
  unfold carryOver
  generalize Dict.keys op.configs.properties = names
  induction names generalizing configs with
  | nil => simp
  | cons first rest ih =>
    rw [List.foldl_cons, ih]
    by_cases heq : first = name
    · -- The config of this name is carried over now, unless it is there already.
      subst heq
      cases hsource : Dict.get? r.source.inputs.configs first with
      | none => simp
      | some v => simp [Dict.get?_insertNew]
    · -- Any other config leaves this one as it is.
      have hne : name ≠ first := Ne.symm heq
      cases hsource : Dict.get? r.source.inputs.configs first with
      | none => simp [hne]
      | some v => simp [Dict.get?_insertNew, heq, hne]

/-! ## All inputs -/

/-- Inputs are made if the added values conform to their schema and all values with a place can be
written there. -/
theorem inputs_eq_ok_iff {l : Link} {op : Operation} {schema : Schema} {r : Result}
    {additional : Dict Json} {inputs : Inputs} :
    l.inputs op schema r additional = .ok inputs ↔
      schema.complaints (.object additional) = [] ∧
        ∃ written,
          writeBody r (l.bodyParameters op.extensionMark)
              (.object (l.parameterInputs op r).parameters) = .ok (.object written) ∧
            inputs =
              { parameters := fill written additional
                configs := carryOver op r (l.parameterInputs op r).configs } := by
  unfold Link.inputs
  by_cases hcomplaints : schema.complaints (.object additional) = []
  · simp only [hcomplaints, List.isEmpty_nil, if_true, true_and]
    cases hbody : writeBody r (l.bodyParameters op.extensionMark)
        (.object (l.parameterInputs op r).parameters) with
    | error f => simp [bind, Except.bind]
    | ok v =>
      obtain ⟨written, rfl, -⟩ := writeBody_object hbody
      simp [bind, Except.bind, Json.membersD, eq_comm]
  · simp [hcomplaints, List.isEmpty_iff]

/-- The link gives the parameter a value: one of its parameters goes there, or one of its pointers
reaches it. -/
def Produces (l : Link) (op : Operation) (r : Result) (name : String) : Prop :=
  Fills op r (.parameter name) l.parameters ∨ Maps r (l.bodyParameters op.extensionMark) name

/-- Where the inputs of the operation come from that the link leads to. -/
structure Provenance (l : Link) (op : Operation) (r : Result) (additional : Dict Json)
    (inputs : Inputs) : Prop where
  /-- The configs are those that a parameter of the link goes to, and those of the source that are
  declared. -/
  config_iff : ∀ name, Dict.contains inputs.configs name ↔
    Fills op r (.config name) l.parameters ∨
      Dict.contains op.configs.properties name ∧ Dict.contains r.source.inputs.configs name
  /-- Of the parameters of the link that go to a config the last one by key counts. -/
  config_of_link : ∀ name, Fills op r (.config name) l.parameters →
    ∃ v, LastValue op r (.config name) l.parameters v ∧ Dict.get? inputs.configs name = some v
  /-- All other configs have the value that the source has. -/
  config_of_source : ∀ name, Dict.contains inputs.configs name →
    ¬Fills op r (.config name) l.parameters →
      Dict.get? inputs.configs name = Dict.get? r.source.inputs.configs name
  /-- Configs that the operation does not declare never reach it. -/
  config_declared : ∀ name, Dict.contains inputs.configs name →
    Dict.contains op.configs.properties name
  /-- The parameters are those that the link produces and those that are added. -/
  parameter_iff : ∀ name, Dict.contains inputs.parameters name ↔
    l.Produces op r name ∨ Dict.contains additional name
  /-- A parameter that the link does not produce has the value that is added. -/
  parameter_of_additional : ∀ name, ¬l.Produces op r name →
    Dict.get? inputs.parameters name = Dict.get? additional name

section Inputs

variable {l : Link} {op : Operation} {schema : Schema} {r : Result} {additional : Dict Json}
  {inputs : Inputs}

/-- A config has the value that the link gives it, or else the one that the source has, as far as
the operation declares it. -/
theorem get?_configs_of_inputs (h : l.inputs op schema r additional = .ok inputs)
    (name : String) :
    Dict.get? inputs.configs name =
      ((l.parameterInputs op r).value? (.config name)).or
        (if Dict.contains op.configs.properties name then
          Dict.get? r.source.inputs.configs name
        else none) := by
  obtain ⟨-, written, -, rfl⟩ := inputs_eq_ok_iff.mp h
  exact get?_carryOver op r _ name

/-- What the link makes of the parameters has exactly those that it produces, and a parameter has
the value there or else the one that is added. -/
theorem get?_parameters_of_inputs (h : l.inputs op schema r additional = .ok inputs) :
    ∃ written,
      writeBody r (l.bodyParameters op.extensionMark)
          (.object (l.parameterInputs op r).parameters) = .ok (.object written) ∧
        (∀ name, Dict.contains written name ↔ l.Produces op r name) ∧
        ∀ name, Dict.get? inputs.parameters name =
          (Dict.get? written name).or (Dict.get? additional name) := by
  obtain ⟨-, written, hbody, rfl⟩ := inputs_eq_ok_iff.mp h
  obtain ⟨_, heq, hcontains, -⟩ := writeBody_object hbody
  cases heq
  refine ⟨written, hbody, fun name => ?_, get?_fill written additional⟩
  rw [hcontains, Produces, ← isSome_value?_parameterInputs l]
  rfl

/-- Every input has its value from where the rules say, if what goes to the configs is declared. -/
theorem provenance_of_inputs
    (hdeclared : ∀ {key name}, op.slot? key = some (.config name) →
      Dict.contains op.configs.properties name)
    (hsorted : Dict.Sorted l.parameters) (h : l.inputs op schema r additional = .ok inputs) :
    l.Provenance op r additional inputs := by
  -- The parameters of the link are put first, and the configs of the source do not replace them.
  have hconfigs := get?_configs_of_inputs h
  obtain ⟨written, -, hproduces, hparameters⟩ := get?_parameters_of_inputs h
  have hfills : ∀ name, ((l.parameterInputs op r).value? (.config name)).isSome ↔
      Fills op r (.config name) l.parameters := fun name =>
    isSome_value?_parameterInputs l
  -- A config comes from the link, or the operation declares it and the source has it.
  have hiff : ∀ name, Dict.contains inputs.configs name ↔
      Fills op r (.config name) l.parameters ∨
        Dict.contains op.configs.properties name ∧
          Dict.contains r.source.inputs.configs name := by
    intro name
    show (Dict.get? inputs.configs name).isSome ↔ _
    rw [hconfigs, Option.isSome_or, Bool.or_eq_true, hfills]
    by_cases hname : Dict.contains op.configs.properties name
    · rw [if_pos hname]
      simp only [hname, true_and]
      rfl
    · simp [hname]
  constructor
  case config_iff => exact hiff
  case config_of_link =>
    intro name hfill
    obtain ⟨v, hlast, hvalue⟩ := value?_foldl_of_fills hsorted hfill {}
    refine ⟨v, hlast, ?_⟩
    rw [hconfigs, parameterInputs, hvalue, Option.some_or]
  case config_of_source =>
    intro name hname hfill
    have hdeclared' := ((hiff name).mp hname).resolve_left hfill
    have hnone : (l.parameterInputs op r).value? (.config name) = none := by
      rw [← Option.not_isSome_iff_eq_none, hfills]
      exact hfill
    rw [hconfigs, hnone, Option.none_or, if_pos hdeclared'.1]
  case config_declared =>
    intro name hname
    rcases (hiff name).mp hname with ⟨e, -, hslot, -⟩ | ⟨hown, -⟩
    · exact hdeclared hslot
    · exact hown
  case parameter_iff =>
    intro name
    rw [← hproduces, Dict.contains, hparameters, Option.isSome_or, Bool.or_eq_true]
    rfl
  case parameter_of_additional =>
    intro name hname
    rw [← hproduces, ← Dict.get?_eq_none_iff] at hname
    rw [hparameters, hname, Option.none_or]

end Inputs

/-- All expressions of the link have the same values in two results. -/
structure Agree (l : Link) (op : Operation) (r r' : Result) : Prop where
  parameters : ∀ e ∈ l.parameters, Formula.resolve e.2 r' = Formula.resolve e.2 r
  pointers : ∀ e ∈ l.bodyParameters op.extensionMark,
    Formula.resolve (.string e.2) r' = Formula.resolve (.string e.2) r

variable {l : Link} {op : Operation} {r r' : Result}

/-- The parameters of the link depend on a result by the values of expressions only. -/
theorem Agree.parameterInputs_eq (h : l.Agree op r r') :
    l.parameterInputs op r' = l.parameterInputs op r := by
  unfold parameterInputs
  refine List.foldl_ext _ _ _ fun inputs e he => ?_
  rw [putParameter, putParameter, h.parameters e he]

/-- What is written at pointers depends on a result by the values of expressions only. -/
theorem writeBody_congr {entries : List (String × String)}
    (h : ∀ e ∈ entries, Formula.resolve (.string e.2) r' = Formula.resolve (.string e.2) r)
    (v : Json) : writeBody r' entries v = writeBody r entries v := by
  induction entries generalizing v with
  | nil => rfl
  | cons e rest ih =>
    have hrest := ih fun e' he' => h e' (List.mem_cons_of_mem _ he')
    simp only [writeBody, h e List.mem_cons_self, hrest]

end Link

namespace LinkMemo

variable {m : LinkMemo} {c : Catalog} {r : Result} {additional : Dict Json} {inputs : Inputs}
  {mark baseUrl : String} {shared : Option Schema} {spec : OperationSpec}

/-- Preparing a link leads to its inputs for the operation that it has as its target. -/
theorem prepare_eq_inputs {op : Operation} (h : m.target? c = some op) :
    m.prepare c r additional =
      m.link.inputs op (m.additional.getD (m.link.additionalSchema op)) r additional := by
  unfold prepare reach
  rw [h]
  rfl

/-- Where the inputs of the operation of a catalog come from that a link leads to. What the caller
adds has no influence on the configs, nor on parameters that the link produces, and the inputs of
the call that the link starts from come in by expressions and as configs only. -/
theorem provenance_of_prepare
    (htarget : m.target? c = some (.ofSpec mark baseUrl shared spec))
    (hsorted : Dict.Sorted m.link.parameters) (h : m.prepare c r additional = .ok inputs) :
    m.link.Provenance (.ofSpec mark baseUrl shared spec) r additional inputs ∧
      (∀ additional' inputs', m.prepare c r additional' = .ok inputs' →
        inputs'.configs = inputs.configs ∧
          ∀ name, m.link.Produces (.ofSpec mark baseUrl shared spec) r name →
            Dict.get? inputs'.parameters name = Dict.get? inputs.parameters name) ∧
      ∀ r', m.link.Agree (.ofSpec mark baseUrl shared spec) r r' →
        ∃ inputs', m.prepare c r' additional = .ok inputs' ∧
          inputs'.parameters = inputs.parameters ∧
          (r'.source.inputs.configs = r.source.inputs.configs →
            inputs'.configs = inputs.configs) := by
  simp only [prepare_eq_inputs htarget] at h ⊢
  obtain ⟨hcomplaints, body, hbody, hinputs⟩ := Link.inputs_eq_ok_iff.mp h
  refine ⟨Link.provenance_of_inputs Operation.contains_of_slot?_eq_config hsorted h, ?_, ?_⟩
  · -- What the link writes is the same for both, and it counts before what is added.
    intro additional' inputs' h'
    obtain ⟨written, hwritten, hproduces, hget⟩ := Link.get?_parameters_of_inputs h
    obtain ⟨written', hwritten', -, hget'⟩ := Link.get?_parameters_of_inputs h'
    obtain ⟨-, _, -, hinputs'⟩ := Link.inputs_eq_ok_iff.mp h'
    refine ⟨by rw [hinputs, hinputs'], fun name hname => ?_⟩
    have hsame : written' = written := by
      rw [hwritten] at hwritten'
      cases hwritten'
      rfl
    obtain ⟨v, hv⟩ := Option.isSome_iff_exists.mp ((hproduces name).mpr hname)
    rw [hget, hget', hsame, hv, Option.some_or, Option.some_or]
  · intro r' hagree
    have hstart := hagree.parameterInputs_eq
    have hbody' := Link.writeBody_congr hagree.pointers
      (.object (m.link.parameterInputs (.ofSpec mark baseUrl shared spec) r).parameters)
    refine ⟨_, Link.inputs_eq_ok_iff.mpr ⟨hcomplaints, body, ?_, rfl⟩, by rw [hinputs], ?_⟩
    · rw [hstart, hbody', hbody]
    · intro hconfigs
      rw [hinputs]
      simp only [hstart, Link.carryOver, hconfigs]

/-- An operation with a path parameter, a header that users know by another name, properties of the
body and a setting. -/
def tagVolume : OperationSpec :=
  { id := "tagVolume", method := "post", path := "/volumes/{id}/tags"
    parameters := [
      { name := "id", location := .path, schema := .string },
      { name := "X-Zone", location := .header
        schema := { types := ["string"], extensions := [("x-relay-name", .string "zone")] } }]
    requestBody := some (.object [("note", .string), ("tag", .string)] [])
    configs := some (.object [("region", .string)] []) }

/-- A link to it with two keys for the header, one for the path parameter, and a pointer. -/
def tagLink : Link :=
  { name := "tag", operationId := some "tagVolume"
    parameters := [
      ("X-Zone", .string "$method"), ("header.X-Zone", .string "zone-{$statusCode}"),
      ("path.id", .string "$response.body#/id")]
    extensions := [
      ("x-relay-requestBodyParameters", .object [("/tag", .string "$request.query.tag")])] }

/-- The result of a call with settings, of which `tagVolume` knows one. -/
def created : Result :=
  .ofResponse
    { operation := "createVolume"
      inputs :=
        { parameters := [("secret", .string "s")]
          configs := [("region", .string "br-se1"), ("token", .string "t")] }
      bindings := [] }
    { method := "POST", url := "https://api/volumes?tag=new" }
    { status := 201, body := some (.object [("id", .string "v1")]) }

/-- The header and the region are the only configs, although the first call had a token as well. -/
theorem provenance_of_prepare_tagVolume :
    ∃ inputs,
      LinkMemo.prepare { link := tagLink }
          { name := "volumes", operations := [.ofSpec "x-relay" "https://api" none tagVolume] }
          created [("note", .string "n")] = .ok inputs ∧
        tagLink.Provenance (.ofSpec "x-relay" "https://api" none tagVolume) created
          [("note", .string "n")] inputs ∧
        Dict.keys inputs.configs = ["region", "zone"] := by
  have hsorted : Dict.Sorted tagLink.parameters := by
    unfold Dict.Sorted
    decide
  have hrun : (match LinkMemo.prepare { link := tagLink }
        { name := "volumes", operations := [.ofSpec "x-relay" "https://api" none tagVolume] }
        created [("note", .string "n")] with
      | .error _ => false
      | .ok inputs => Dict.keys inputs.configs == ["region", "zone"]) = true := by
    decide +kernel
  split at hrun
  next => cases hrun
  next inputs hinputs =>
    exact ⟨inputs, hinputs, (provenance_of_prepare rfl hsorted hinputs).1, by simpa using hrun⟩

end LinkMemo

end ApiCommand
