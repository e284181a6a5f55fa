import ApiCommand.Catalog.Operation
import ApiCommand.Proofs.Flag.Resolution

/-!
# The schemas of an operation

The schemas that an operation of a catalog has for its inputs are closed, and each of their required
names is declared (`lawful_parametersOf`, `lawful_configsOf`). The external names of path parameters
are among the required names, whatever other inputs share a name with them
(`externalName_mem_required`).
-/

namespace ApiCommand

/-! ## Properties -/

namespace Properties

/-- The properties are a dictionary, and all required names are declared. -/
structure Lawful (p : Properties) : Prop where
  sorted : Dict.Sorted p.schemas
  contains_of_required : ∀ name ∈ p.required, Dict.contains p.schemas name

theorem lawful_empty : Lawful {} where
  sorted := Dict.sorted_nil
  contains_of_required := by
    intro name hname
    cases hname

/-- A name is required after adding a property if it was before, or if the property has it and is
required. -/
theorem mem_required_add {p : Properties} {name other : String} {schema : Schema}
    {required : Bool} :
    other ∈ (p.add name schema required).required ↔
      other ∈ p.required ∨ (required ∧ other = name) := by
  unfold add
  cases required <;> simp

/-- A new property keeps the order of the names, and is declared if it is required. -/
theorem Lawful.add {p : Properties} (h : p.Lawful) (name : String) (schema : Schema)
    (required : Bool) : (p.add name schema required).Lawful where
  sorted := h.sorted.insert name schema
  contains_of_required := by
    intro other hother
    simp only [Properties.add, Dict.contains_insert, Bool.or_eq_true, beq_iff_eq]
    rcases mem_required_add.mp hother with hbefore | ⟨-, rfl⟩
    · exact Or.inr (h.contains_of_required other hbefore)
    · exact Or.inl rfl

theorem Lawful.addAll {p : Properties} (h : p.Lawful) (schema : Schema) :
    (p.addAll schema).Lawful :=
  List.foldlRecOn _ _ h fun _ hq e _ => hq.add e.1 e.2 (schema.requires e.1)

theorem Lawful.foldl_addParameter {p : Properties} (h : p.Lawful) (mark : String)
    (specs : List ParameterSpec) : (specs.foldl (addParameter mark) p).Lawful :=
  List.foldlRecOn _ _ h fun _ hq spec _ => hq.add _ spec.describedSchema spec.isRequired

/-- A name that is required stays so when parameters are added. -/
theorem mem_required_foldl_addParameter {p : Properties} (mark : String)
    (specs : List ParameterSpec) {name : String} (h : name ∈ p.required) :
    name ∈ (specs.foldl (addParameter mark) p).required :=
  List.foldlRecOn (motive := fun q : Properties => name ∈ q.required) _ _ h
    fun _ hq _ _ => mem_required_add.mpr (Or.inl hq)

/-- Adding parameters adds their external names and no others. -/
theorem contains_foldl_addParameter (mark : String) (specs : List ParameterSpec) (p : Properties)
    (name : String) :
    Dict.contains (specs.foldl (addParameter mark) p).schemas name ↔
      Dict.contains p.schemas name ∨ ∃ spec ∈ specs, (spec.binding mark).externalName = name := by
  induction specs generalizing p with
  | nil => simp
  | cons spec rest ih =>
    rw [List.foldl_cons, ih, addParameter, add, Dict.contains_insert]
    simp only [Bool.or_eq_true, beq_iff_eq, List.mem_cons, exists_eq_or_imp]
    tauto

/-- Adding parameters makes the external names of those required that need a value. -/
theorem externalName_mem_required_foldl {p : Properties} (mark : String)
    {specs : List ParameterSpec} {spec : ParameterSpec} (hspec : spec ∈ specs)
    (hrequired : spec.isRequired) :
    (spec.binding mark).externalName ∈ (specs.foldl (addParameter mark) p).required := by
  induction specs generalizing p with
  | nil => cases hspec
  | cons first rest ih =>
    rcases List.mem_cons.mp hspec with rfl | hrest
    · exact mem_required_foldl_addParameter mark rest
        (mem_required_add.mpr (Or.inr ⟨hrequired, rfl⟩))
    · exact ih hrest

end Properties

/-! ## Properties of the body -/

namespace BodyNames

/-- So do the properties of a body, whatever they are renamed to. -/
theorem lawful_addAll {b : BodyNames} (h : b.properties.Lawful) (mark : String) (body : Schema) :
    (b.addAll mark body).properties.Lawful :=
  List.foldlRecOn (motive := fun c : BodyNames => c.properties.Lawful) _ _ h
    fun _ hc e _ => hc.add _ e.2 (body.requires e.1)

/-- A name that is required stays so when the properties of a body are added. -/
theorem mem_required_addAll {b : BodyNames} {name : String} (h : name ∈ b.properties.required)
    (mark : String) (body : Schema) : name ∈ (b.addAll mark body).properties.required :=
  List.foldlRecOn (motive := fun c : BodyNames => name ∈ c.properties.required) _ _ h
    fun _ hc _ _ => Properties.mem_required_add.mpr (Or.inl hc)

end BodyNames

/-! ## Operations -/

namespace Operation

/-- The parameters of an operation are properties of this kind, with those of the body. -/
theorem lawful_parametersOf (mark : String) (spec : OperationSpec) :
    (parametersOf mark spec).properties.Lawful := by
  have hstart := Properties.lawful_empty.foldl_addParameter mark
    (spec.parameters.filter fun p => !p.location.isConfig)
  unfold parametersOf
  cases spec.requestBody with
  | none => exact hstart
  | some body => exact BodyNames.lawful_addAll hstart mark body

/-- So are its configs, with those that all operations share. -/
theorem lawful_configsOf (mark : String) (shared : Option Schema) (spec : OperationSpec) :
    (configsOf mark shared spec).Lawful := by
  have hsettings : ((shared.toList ++ spec.configs.toList).foldl Properties.addAll {}).Lawful :=
    List.foldlRecOn _ _ Properties.lawful_empty fun _ hp schema _ => hp.addAll schema
  exact hsettings.foldl_addParameter mark _

/-- A path parameter is required, also if other parameters or properties of the body have its
external name. -/
theorem externalName_mem_required (mark : String) (spec : OperationSpec) {p : ParameterSpec}
    (hp : p ∈ spec.parameters) (hpath : p.location = .path) :
    (p.binding mark).externalName ∈ (parametersOf mark spec).properties.required := by
  have hown : p ∈ spec.parameters.filter fun p => !p.location.isConfig :=
    List.mem_filter.mpr ⟨hp, by rw [hpath]; rfl⟩
  have hstart := Properties.externalName_mem_required_foldl (p := {}) mark hown
    (by simp [ParameterSpec.isRequired, hpath])
  unfold parametersOf
  cases spec.requestBody with
  | none => exact hstart
  | some body => exact BodyNames.mem_required_addAll hstart mark body

/-- A header or cookie is declared among the configs by its external name. -/
theorem contains_configsOf (mark : String) (shared : Option Schema) {spec : OperationSpec}
    {p : ParameterSpec} (hp : p ∈ spec.parameters) (hconfig : p.location.isConfig) :
    Dict.contains (configsOf mark shared spec).schemas (p.binding mark).externalName :=
  (Properties.contains_foldl_addParameter mark _ _ _).mpr
    (Or.inr ⟨p, List.mem_filter.mpr ⟨hp, hconfig⟩, rfl⟩)

variable (mark baseUrl : String) (shared : Option Schema) (spec : OperationSpec)

/-- The properties of the inputs of one kind. -/
def inputProperties (isConfig : Bool) : Properties :=
  if isConfig then configsOf mark shared spec else (parametersOf mark spec).properties

/-- The schemas of the two kinds of input are those of the properties of the kind. -/
theorem inputSchema_ofSpec (isConfig : Bool) :
    (ofSpec mark baseUrl shared spec).descriptor.inputSchema isConfig =
      (inputProperties mark shared spec isConfig).schema := by
  cases isConfig <;> rfl

theorem lawful_inputProperties (isConfig : Bool) :
    (inputProperties mark shared spec isConfig).Lawful := by
  cases isConfig with
  | false => exact lawful_parametersOf mark spec
  | true => exact lawful_configsOf mark shared spec

/-- What a command gets to know of an operation has the properties of both schemas in order. -/
theorem wellFormed_ofSpec : (ofSpec mark baseUrl shared spec).descriptor.WellFormed where
  parameters := (lawful_parametersOf mark spec).sorted
  configs := (lawful_configsOf mark shared spec).sorted

end Operation

end ApiCommand
