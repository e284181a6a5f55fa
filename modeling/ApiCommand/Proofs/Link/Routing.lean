import ApiCommand.Link.Follow
import ApiCommand.Proofs.Catalog.Operation

/-!
# Where the parameters of a link go

A key of a link goes to the first path or query parameter that it names, else to the first header or
cookie, else to the property that is called so. `slot?_eq_parameter_iff` says the same from the side
of a property: a key is written to it if it stands for the property and no other input takes the key
away. For an operation of a catalog, whatever is written to the configs is declared among them
(`contains_of_slot?_eq_config`).
-/

namespace ApiCommand

/-- The value in a slot. -/
def Inputs.value? (inputs : Inputs) (slot : Slot) : Option Json :=
  match slot with
  | .parameter name => Dict.get? inputs.parameters name
  | .config name => Dict.get? inputs.configs name

/-- Putting a value into a slot leaves the other ones as they are. -/
theorem Inputs.value?_put (inputs : Inputs) (slot other : Slot) (v : Json) :
    (inputs.put slot v).value? other = if slot = other then some v else inputs.value? other := by
  cases slot <;> cases other <;> simp [put, value?, Dict.get?_insert]

namespace Operation

variable {op : Operation} {key p : String}

/-- A key names the binding that is found for it. -/
theorem namedBinding?_eq_some {isConfig : Bool} {b : Binding}
    (h : op.namedBinding? isConfig key = some b) :
    b ∈ op.bindings ∧ b.location.isConfig = isConfig ∧ b.isNamedBy key := by
  have hfound := List.find?_some h
  simp only [Bool.and_eq_true, beq_iff_eq] at hfound
  exact ⟨List.mem_of_find?_eq_some h, hfound⟩

/-- If none is found, then the key names no binding of the kind. -/
theorem namedBinding?_eq_none {isConfig : Bool} (h : op.namedBinding? isConfig key = none)
    {b : Binding} (hb : b ∈ op.bindings) (hconfig : b.location.isConfig = isConfig) :
    ¬b.isNamedBy key := by
  have hmissed := List.find?_eq_none.mp h b hb
  simpa [hconfig] using hmissed

/-! ## Parameters -/

/-- The key stands for a property: it is the name of the property, or it names an input that is
known by that name. -/
def StandsFor (op : Operation) (key p : String) : Prop :=
  key = p ∨ ∃ b ∈ op.bindings, b.externalName = p ∧ b.isNamedBy key

/-- Another input than the parameter takes the key away from it: the first path or query parameter
that the key names is known by another name, or the key names none of these, but a header or
cookie. -/
def TakesAway (op : Operation) (key p : String) : Prop :=
  (∃ b, op.namedBinding? false key = some b ∧ b.externalName ≠ p) ∨
    op.namedBinding? false key = none ∧ (op.namedBinding? true key).isSome

/-- A key goes to a parameter if it stands for it and is not taken away. -/
theorem slot?_eq_parameter_iff (hp : Dict.contains op.parameters.properties p) :
    op.slot? key = some (.parameter p) ↔ op.StandsFor key p ∧ ¬op.TakesAway key p := by
  unfold slot? StandsFor TakesAway
  cases hparameter : op.namedBinding? false key with
  | some b =>
    -- The key goes where the binding says, whatever else it stands for.
    obtain ⟨hb, -, hnamed⟩ := namedBinding?_eq_some hparameter
    constructor
    · intro h
      have hname : b.externalName = p := by simpa using h
      exact ⟨Or.inr ⟨b, hb, hname, hnamed⟩, by simp [hname]⟩
    · rintro ⟨-, hkept⟩
      have hname : b.externalName = p := by simpa using hkept
      simp [hname]
  | none =>
    cases hconfig : op.namedBinding? true key with
    | some b => simp
    | none =>
      -- No binding is named by the key, so it can only stand for itself.
      have hunnamed : ∀ b ∈ op.bindings, ¬b.isNamedBy key := by
        intro b hb
        cases hkind : b.location.isConfig with
        | false => exact namedBinding?_eq_none hparameter hb hkind
        | true => exact namedBinding?_eq_none hconfig hb hkind
      have hself : (key = p ∨ ∃ b ∈ op.bindings, b.externalName = p ∧ b.isNamedBy key) ↔
          key = p :=
        or_iff_left fun ⟨b, hb, _, hnamed⟩ => hunnamed b hb hnamed
      rw [hself]
      constructor
      · intro h
        dsimp only at h
        split at h
        next => simpa using h
        next => split at h <;> cases h
      · rintro ⟨rfl, -⟩
        simp [hp]

/-! ## Configs -/

/-- What goes to the configs of an operation of a catalog is declared among them. -/
theorem contains_of_slot?_eq_config {mark baseUrl : String} {shared : Option Schema}
    {spec : OperationSpec} {name : String}
    (h : (ofSpec mark baseUrl shared spec).slot? key = some (.config name)) :
    Dict.contains (ofSpec mark baseUrl shared spec).configs.properties name := by
  unfold slot? at h
  split at h
  next => cases h
  -- A header or a cookie goes to the config that is declared for it.
  next b _ hb =>
    obtain ⟨hmem, hconfig, -⟩ := namedBinding?_eq_some hb
    obtain ⟨q, hq, rfl⟩ := List.mem_map.mp hmem
    cases h
    exact contains_configsOf mark shared hq hconfig
  next =>
    -- A key without a binding goes to a config only if one is declared by this name.
    split at h
    next => cases h
    next =>
      split at h
      next hdeclared =>
        cases h
        exact hdeclared
      next => cases h

end Operation

end ApiCommand
