import ApiCommand.Proofs.Link.Provenance

/-!
# What a link provides

The caller of a link may add the parameters that the link does not provide. What counts as provided
is decided by what the keys of the link stand for, and where a key goes by the first input that it
names. `leftOut_iff` says what follows from the difference: a parameter that is left out is either
written by the link, or it is lost, because all keys that stand for it go elsewhere. A lost parameter
can be given neither by the link nor by the caller (`additionalSchema_ne_moveVolume`).
-/

namespace ApiCommand.Link

variable {l : Link} {op : Operation} {p : String}

/-- A key of the link goes to the parameter. -/
def Writes (l : Link) (op : Operation) (p : String) : Prop :=
  ∃ e ∈ l.parameters, op.slot? e.1 = some (.parameter p)

/-- Keys of the link stand for the parameter, but other inputs take all of them away from it. -/
def Loses (l : Link) (op : Operation) (p : String) : Prop :=
  (∃ e ∈ l.parameters, op.StandsFor e.1 p) ∧
    ∀ e ∈ l.parameters, op.StandsFor e.1 p → op.TakesAway e.1 p

theorem provides_iff : l.provides op p ↔ ∃ e ∈ l.parameters, op.StandsFor e.1 p := by
  simp [provides, Operation.StandsFor]

/-- A parameter is left out of what may be added if a key of the link stands for it. -/
theorem contains_additionalSchema_eq_false_iff
    (hp : Dict.contains op.parameters.properties p) :
    Dict.contains (l.additionalSchema op).properties p = false ↔
      ∃ e ∈ l.parameters, op.StandsFor e.1 p := by
  rw [← provides_iff]
  have hget : Dict.get? (l.additionalSchema op).properties p =
      if !l.provides op p then Dict.get? op.parameters.properties p else none :=
    Dict.get?_filter op.parameters.properties (fun name => !l.provides op name) p
  rw [Dict.contains] at hp ⊢
  rw [hget]
  cases hprovides : l.provides op p <;> simp [hp]

/-- The link writes a parameter if a key that stands for it is not taken away. -/
theorem writes_iff (hp : Dict.contains op.parameters.properties p) :
    l.Writes op p ↔ ∃ e ∈ l.parameters, op.StandsFor e.1 p ∧ ¬op.TakesAway e.1 p := by
  unfold Writes
  simp only [Operation.slot?_eq_parameter_iff hp]

/-- A parameter that may not be added is one that the link writes, or one that it loses, and never
both. What the link writes has a value in the inputs whenever the expression has one. -/
theorem leftOut_iff (hp : Dict.contains op.parameters.properties p) :
    (Dict.contains (l.additionalSchema op).properties p = false ↔
        l.Writes op p ∨ l.Loses op p) ∧
      ¬(l.Writes op p ∧ l.Loses op p) ∧
      ∀ e ∈ l.parameters, op.slot? e.1 = some (.parameter p) →
        ∀ r schema additional inputs, (Formula.resolve e.2 r).isSome →
          l.inputs op schema r additional = .ok inputs → Dict.contains inputs.parameters p := by
  rw [contains_additionalSchema_eq_false_iff hp, writes_iff hp]
  refine ⟨⟨?_, ?_⟩, ?_, ?_⟩
  · -- A key that stands for the parameter writes it unless all such keys are taken away.
    intro hstands
    by_cases hlost : ∀ e ∈ l.parameters, op.StandsFor e.1 p → op.TakesAway e.1 p
    · exact Or.inr ⟨hstands, hlost⟩
    · push Not at hlost
      exact Or.inl hlost
  · rintro (⟨e, he, hstands, -⟩ | ⟨hstands, -⟩)
    · exact ⟨e, he, hstands⟩
    · exact hstands
  · rintro ⟨⟨e, he, hstands, hkept⟩, -, hlost⟩
    exact hkept (hlost e he hstands)
  · -- A key that goes to the parameter and has a value leaves it there, also after the pointers.
    intro e he hslot r schema additional inputs hvalue h
    obtain ⟨written, -, hproduces, hget⟩ := get?_parameters_of_inputs h
    have hwritten : Dict.contains written p :=
      (hproduces p).mpr (Or.inl ⟨e, he, hslot, hvalue⟩)
    rw [Dict.contains] at hwritten ⊢
    rw [hget, Option.isSome_or, hwritten, Bool.true_or]

/-- An operation with a header that users know by the name of a property of the body. The property
is required. -/
def moveVolume : OperationSpec :=
  { id := "moveVolume", method := "post", path := "/moves"
    parameters := [
      { name := "X-Zone", location := .header
        schema := { types := ["string"], extensions := [("x-relay-name", .string "zone")] } }]
    requestBody := some (.object [("zone", .string)] ["zone"]) }

/-- A link to it that gives the header. -/
def moveLink : Link :=
  { name := "move", operationId := some "moveVolume"
    parameters := [("header.X-Zone", .string "br-1")] }

/-- The property of the body may not be added, and it is lost: the key for the header stands for it
as well. -/
theorem leftOut_iff_moveVolume :
    Dict.contains (Operation.ofSpec "x-relay" "https://api" none moveVolume).parameters.properties
        "zone" ∧
      Dict.contains (moveLink.additionalSchema
        (.ofSpec "x-relay" "https://api" none moveVolume)).properties "zone" = false ∧
      moveLink.Loses (.ofSpec "x-relay" "https://api" none moveVolume) "zone" := by
  have hdeclared : Dict.contains
      (Operation.ofSpec "x-relay" "https://api" none moveVolume).parameters.properties "zone" := by
    decide +kernel
  have hleft : Dict.contains (moveLink.additionalSchema
      (.ofSpec "x-relay" "https://api" none moveVolume)).properties "zone" = false := by
    decide +kernel
  have hunwritten : ¬moveLink.Writes (.ofSpec "x-relay" "https://api" none moveVolume) "zone" := by
    rintro ⟨e, he, hslot⟩
    cases List.mem_singleton.mp he
    revert hslot
    decide +kernel
  exact ⟨hdeclared, hleft, ((leftOut_iff hdeclared).1.mp hleft).resolve_left hunwritten⟩

/-- A required property of the body may not be added, although no key of the link goes there. -/
theorem additionalSchema_ne_moveVolume :
    ¬∀ (op : Operation) (l : Link) (p : String), Dict.contains op.parameters.properties p →
      Dict.contains (l.additionalSchema op).properties p = false →
        ∃ e ∈ l.parameters, op.slot? e.1 = some (.parameter p) := by
  intro h
  obtain ⟨e, he, hslot⟩ :=
    h (.ofSpec "x-relay" "https://api" none moveVolume) moveLink "zone"
      (by decide +kernel) (by decide +kernel)
  cases List.mem_singleton.mp he
  revert hslot
  decide +kernel

end ApiCommand.Link
