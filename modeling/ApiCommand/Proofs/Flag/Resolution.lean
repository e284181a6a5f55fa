import ApiCommand.Proofs.Flag.Synthesis
import ApiCommand.Proofs.Schema.Validation

/-!
# What resolution finds

The value of a root flag in the end (`finalValue?`) is the one that was given to it, or for a config
the one of the surroundings, or the default of its schema. Resolution is a single pass over the root
flags. It collects the final values (`finalValues`), the ones that do not conform to their schemas
(`invalidIssues`) and the required flags that have none (`missingNames`), each in the order of the
flags, and it succeeds if the last two are empty (`resolve_eq`).
-/

namespace ApiCommand

/-- A host without variables and files. -/
def Host.bare : Host where
  environment := []
  bytesOf _ := .error .missing

theorem eq_ok_of_toOption {ε α : Type} {r : Except ε α} {a : α} (h : r.toOption = some a) :
    r = .ok a := by
  cases r with
  | error e => cases h
  | ok b =>
    cases h
    rfl

/-- The properties of both schemas are dictionaries: their names ascend, so that no property is
declared twice. -/
structure Descriptor.WellFormed (op : Descriptor) : Prop where
  parameters : Dict.Sorted op.parameters.properties
  configs : Dict.Sorted op.configs.properties

namespace FlagSet

/-! ## The values in the end -/

/-- The value of a root flag in the end: the one that was given to it, or for a config the one that
the surroundings have, or the default of its schema. -/
def finalValue? (s : FlagSet) (source : ValueSource) (id : Nat) : Option Json :=
  (s.place? id).bind fun p =>
    ((s.value? id).or (if p.isConfig then source p.property else none)).or p.schema.defaultValue

/-- What is wrong with the value of a root flag in the end. Nothing is if it has none. -/
def reasons (s : FlagSet) (source : ValueSource) (id : Nat) : List String :=
  match s.place? id, s.finalValue? source id with
  | some p, some v => p.schema.complaints v
  | _, _ => []

/-- The root flag is required, and it has no value in the end. -/
def lacksValue (s : FlagSet) (source : ValueSource) (id : Nat) : Bool :=
  (s.place? id).any Place.required && (s.finalValue? source id).isNone

/-- The property of a root flag of the given kind and its value in the end, if it has one. -/
def finalPair? (s : FlagSet) (source : ValueSource) (isConfig : Bool) (id : Nat) :
    Option (String × Json) :=
  (s.place? id).bind fun p =>
    if p.isConfig = isConfig then (s.finalValue? source id).map fun v => (p.property, v) else none

/-- The values of the given kind in the end, by property. -/
def finalValues (s : FlagSet) (source : ValueSource) (isConfig : Bool) : Dict Json :=
  s.roots.filterMap (s.finalPair? source isConfig)

/-- The issue with a value that does not conform: all that is wrong with it. -/
def invalidIssue (s : FlagSet) (source : ValueSource) (id : Nat) : Issue :=
  .invalid (s.name id) (String.intercalate "; " (s.reasons source id))

/-- One issue for each root flag whose value does not conform. -/
def invalidIssues (s : FlagSet) (source : ValueSource) : List Issue :=
  (s.roots.filter fun id => !(s.reasons source id).isEmpty).map (s.invalidIssue source)

/-- The names of the required flags without a value. -/
def missingNames (s : FlagSet) (source : ValueSource) : List String :=
  (s.roots.filter (s.lacksValue source)).map s.name

/-- One issue for required flags without a value, unless there are none. -/
def missingEntry (names : List String) : List Issue := if names = [] then [] else [.missing names]

/-- The issues with the values in the end: those that do not conform, and then the required flags
without a value. -/
def resolutionIssues (s : FlagSet) (source : ValueSource) : List Issue :=
  s.invalidIssues source ++ missingEntry (s.missingNames source)

/-! ## What the issues say -/

/-- Nothing is wrong with the value of a flag exactly if it conforms to the schema of the flag. -/
theorem reasons_eq_nil_iff {s : FlagSet} {source : ValueSource} {id : Nat} {p : Place}
    (hp : s.place? id = some p) :
    s.reasons source id = [] ↔
      ∀ v, s.finalValue? source id = some v → p.schema.problems v = [] := by
  unfold reasons
  cases s.finalValue? source id <;> simp [hp, Schema.complaints_eq_nil_iff]

/-- A root flag lacks no value if it is not required or has one in the end. -/
theorem lacksValue_eq_false_iff {s : FlagSet} {source : ValueSource} {id : Nat} {p : Place}
    (hp : s.place? id = some p) :
    s.lacksValue source id = false ↔ (p.required → s.finalValue? source id ≠ none) := by
  unfold lacksValue
  cases s.finalValue? source id <;> simp [hp]

theorem missingEntry_eq_nil_iff {names : List String} : missingEntry names = [] ↔ names = [] := by
  unfold missingEntry
  split <;> simp_all

/-- There are no issues exactly if all values conform and no required flag lacks a value. -/
theorem resolutionIssues_eq_nil_iff {s : FlagSet} {source : ValueSource} :
    s.resolutionIssues source = [] ↔
      (∀ id ∈ s.roots, s.reasons source id = []) ∧
        ∀ id ∈ s.roots, s.lacksValue source id = false := by
  have hinvalid : s.invalidIssues source = [] ↔ ∀ id ∈ s.roots, s.reasons source id = [] := by
    simp [invalidIssues, List.filter_eq_nil_iff]
  have hmissing : s.missingNames source = [] ↔
      ∀ id ∈ s.roots, s.lacksValue source id = false := by
    simp [missingNames, List.filter_eq_nil_iff]
  rw [resolutionIssues, List.append_eq_nil_iff, missingEntry_eq_nil_iff, hinvalid, hmissing]

/-- Nothing stops resolution exactly if no flag was asked for help. -/
theorem helpFlag?_eq_none_iff {s : FlagSet} : s.helpFlag? = none ↔ s.Quiet := by
  rw [helpFlag?, List.find?_eq_none]
  refine forall₂_congr fun id hid => ?_
  cases s.flag? id <;> simp

/-- No flag was asked for help if resolution succeeds. -/
theorem quiet_of_resolve {s : FlagSet} {source : ValueSource} {inputs : Inputs}
    (h : s.resolve source = .ok inputs) : s.Quiet := by
  rw [← helpFlag?_eq_none_iff]
  unfold resolve at h
  split at h
  next => cases h
  next hhelp => exact hhelp

/-! ## One flag -/

/-- Marks make no difference: the value that resolution sees is the value in the end. -/
theorem effectiveValue?_eq {s : FlagSet} (hrooted : s.Rooted) (hmarked : s.Marked)
    (source : ValueSource) {id : Nat} (hid : id ∈ s.roots) {f : Flag} {p : Place}
    (hf : s.flag? id = some f) (hp : f.place? = some p) :
    s.effectiveValue? source id f p = s.finalValue? source id := by
  -- The mark is only asked for if there is a value, and then it is set.
  have hgiven : (if f.changed then s.value? id else none) = s.value? id := by
    rw [value?_of_mem_roots hrooted hid, hf, Option.bind_some]
    cases hvalue : f.value with
    | none => simp
    | some v => simp [hmarked id f hf (by rw [hvalue]; rfl)]
  simp only [effectiveValue?, hgiven, finalValue?, place?_of_flag? hf, hp, Option.bind_some]

/-- What is collected after one flag, by the value of the flag in the end. -/
def afterFlag (s : FlagSet) (source : ValueSource) (r : Resolution) (id : Nat) (p : Place) :
    Resolution :=
  match s.finalValue? source id with
  | none => if p.required then { r with missing := r.missing ++ [s.name id] } else r
  | some v =>
    if s.reasons source id = [] then r.take p v
    else { r with invalid := r.invalid ++ [s.invalidIssue source id] }

section Pass

variable {s : FlagSet} (hrooted : s.Rooted) (hmarked : s.Marked) (source : ValueSource)

include hrooted hmarked

/-- Resolving a root flag takes its value in the end, or adds an issue with it. -/
theorem resolveFlag_eq {id : Nat} (hid : id ∈ s.roots) (r : Resolution) :
    ∃ p, s.place? id = some p ∧ s.resolveFlag source r id = s.afterFlag source r id p := by
  obtain ⟨p, hplace, -, -⟩ := hrooted.place_of_mem id hid
  obtain ⟨f, hf, hp⟩ := Option.bind_eq_some_iff.mp hplace
  refine ⟨p, hplace, ?_⟩
  have hvalue := effectiveValue?_eq hrooted hmarked source hid hf hp
  simp only [resolveFlag, hf, hp, hvalue, afterFlag, reasons, invalidIssue, hplace,
    name_of_flag? hf]
  cases s.finalValue? source id <;> simp

/-! ## All flags -/

/-- The issues are collected one flag after another. -/
theorem foldl_resolveFlag_issues (ids : List Nat) (hids : ∀ id ∈ ids, id ∈ s.roots)
    (r : Resolution) :
    (ids.foldl (s.resolveFlag source) r).invalid = r.invalid ++
        (ids.filter fun id => !(s.reasons source id).isEmpty).map (s.invalidIssue source) ∧
      (ids.foldl (s.resolveFlag source) r).missing =
        r.missing ++ (ids.filter (s.lacksValue source)).map s.name := by
  induction ids generalizing r with
  | nil => simp
  | cons id rest ih =>
    obtain ⟨hhead, htail⟩ := List.forall_mem_cons.mp hids
    obtain ⟨p, hplace, hstep⟩ := resolveFlag_eq hrooted hmarked source hhead r
    obtain ⟨hinvalid, hmissing⟩ := ih htail (s.resolveFlag source r id)
    rw [List.foldl_cons, hinvalid, hmissing, hstep]
    -- Nothing is wrong with a value that is absent, and a value that is there is not lacking.
    cases hvalue : s.finalValue? source id with
    | none =>
      have hreasons : s.reasons source id = [] := by simp [reasons, hplace, hvalue]
      by_cases hrequired : p.required <;>
        simp [afterFlag, hvalue, hreasons, lacksValue, hplace, hrequired]
    | some v =>
      have hlacks : s.lacksValue source id = false := by simp [lacksValue, hvalue]
      by_cases hreasons : s.reasons source id = [] <;>
        simp [afterFlag, hvalue, hreasons, hlacks, Resolution.take]

/-- If all values conform, then all of them are taken. -/
theorem foldl_resolveFlag_inputs (ids : List Nat) (hids : ∀ id ∈ ids, id ∈ s.roots)
    (hconform : ∀ id ∈ ids, s.reasons source id = []) (r : Resolution) :
    (ids.foldl (s.resolveFlag source) r).inputs =
      { parameters := Dict.extend r.inputs.parameters (ids.filterMap (s.finalPair? source false))
        configs := Dict.extend r.inputs.configs (ids.filterMap (s.finalPair? source true)) } := by
  induction ids generalizing r with
  | nil => rfl
  | cons id rest ih =>
    obtain ⟨hhead, htail⟩ := List.forall_mem_cons.mp hids
    obtain ⟨hreasons, hrest⟩ := List.forall_mem_cons.mp hconform
    obtain ⟨p, hplace, hstep⟩ := resolveFlag_eq hrooted hmarked source hhead r
    rw [List.foldl_cons, ih htail hrest, hstep]
    cases hvalue : s.finalValue? source id with
    | none =>
      by_cases hrequired : p.required <;>
        simp [afterFlag, hvalue, finalPair?, hplace, hrequired]
    | some v =>
      by_cases hconfig : p.isConfig <;>
        simp [afterFlag, hvalue, hreasons, finalPair?, hplace, hconfig, Resolution.take,
          Dict.extend]

/-- Without a request for help, resolution succeeds if there are no issues, and reports all of them
otherwise. -/
theorem resolve_eq (hquiet : s.Quiet) :
    s.resolve source =
      if s.resolutionIssues source = [] then
        .ok
          { parameters := Dict.ofList (s.finalValues source false)
            configs := Dict.ofList (s.finalValues source true) }
      else .error (.usage (s.resolutionIssues source)) := by
  obtain ⟨hinvalid, hmissing⟩ :=
    foldl_resolveFlag_issues hrooted hmarked source s.roots (fun _ h => h) {}
  have hissues : (s.roots.foldl (s.resolveFlag source) {}).issues = s.resolutionIssues source := by
    simp only [Resolution.issues, hinvalid, hmissing, List.nil_append, List.isEmpty_iff]
    rfl
  simp only [resolve, helpFlag?_eq_none_iff.mpr hquiet, hissues, List.isEmpty_iff]
  by_cases hnone : s.resolutionIssues source = []
  · have hconform := (resolutionIssues_eq_nil_iff.mp hnone).1
    rw [if_pos hnone, if_pos hnone,
      foldl_resolveFlag_inputs hrooted hmarked source s.roots (fun _ h => h) hconform]
    rfl
  · rw [if_neg hnone, if_neg hnone]

end Pass

/-! ## The flags of an operation -/

/-- A flag contributes its property with the value that it has in the end. -/
theorem finalPair?_eq_some_iff {s : FlagSet} {source : ValueSource} {isConfig : Bool} {id : Nat}
    {e : String × Json} :
    s.finalPair? source isConfig id = some e ↔
      ∃ p, s.place? id = some p ∧ p.isConfig = isConfig ∧ p.property = e.1 ∧
        s.finalValue? source id = some e.2 := by
  rw [finalPair?, Option.bind_eq_some_iff]
  refine exists_congr fun p => and_congr_right fun _ => ?_
  split
  next hkind => simp [hkind, Prod.ext_iff, and_comm]
  next hkind => simp [hkind]

/-- A value is collected exactly if it is the value of a root flag in the end. -/
theorem mem_finalValues_iff {s : FlagSet} {source : ValueSource} {isConfig : Bool}
    {e : String × Json} :
    e ∈ s.finalValues source isConfig ↔
      ∃ id ∈ s.roots, ∃ p, s.place? id = some p ∧ p.isConfig = isConfig ∧ p.property = e.1 ∧
        s.finalValue? source id = some e.2 := by
  simp only [finalValues, List.mem_filterMap, finalPair?_eq_some_iff]

/-- The properties of a dictionary are declared in ascending order. -/
theorem pairwise_declarations {schema : Schema} (h : Dict.Sorted schema.properties)
    (isConfig : Bool) :
    (schema.declarations isConfig).Pairwise fun a b =>
      a.isConfig = b.isConfig → a.property < b.property := by
  rw [Schema.declarations, List.pairwise_map]
  refine List.Pairwise.imp ?_ h
  intro e e' hlt _
  exact hlt

/-- The declarations of one kind have ascending properties. -/
theorem pairwise_declarationsOf {op : Descriptor} (h : op.WellFormed) :
    (declarationsOf op).Pairwise fun a b => a.isConfig = b.isConfig → a.property < b.property := by
  refine List.pairwise_append.mpr
    ⟨pairwise_declarations h.parameters _, pairwise_declarations h.configs _,
      fun a ha b hb heq => ?_⟩
  obtain ⟨_, -, rfl⟩ := List.mem_map.mp ha
  obtain ⟨_, -, rfl⟩ := List.mem_map.mp hb
  cases heq

/-- The values that are collected for the flags of an operation are a dictionary. -/
theorem sorted_finalValues {s : FlagSet} {op : Descriptor} (hop : op.WellFormed)
    (hplaces : s.rootPlaces.map Place.declaration = declarationsOf op) (source : ValueSource)
    (isConfig : Bool) : Dict.Sorted (s.finalValues source isConfig) := by
  have hpairwise := pairwise_declarationsOf hop
  rw [← hplaces, List.pairwise_map, rootPlaces, List.pairwise_filterMap] at hpairwise
  refine List.pairwise_filterMap.mpr (hpairwise.imp fun {id other} hlt => ?_)
  -- Two values of one kind belong to two properties of one kind, declared in the same order.
  intro e he e' he'
  obtain ⟨p, hp, hkind, hproperty, -⟩ := finalPair?_eq_some_iff.mp he
  obtain ⟨q, hq, hkind', hproperty', -⟩ := finalPair?_eq_some_iff.mp he'
  have hproperties := hlt p hp q hq (hkind.trans hkind'.symm)
  rw [← hproperty, ← hproperty']
  exact hproperties

/-- What the flags of an operation are is kept in all states that are reached, and values that were
given are seen. -/
theorem Declares.reached {start s : FlagSet} {declarations : List Declaration}
    (h : start.Declares declarations) (hs : Reachable start s) :
    s.Rooted ∧ s.Marked ∧ s.rootPlaces.map Place.declaration = declarations := by
  have hblank := blank_of_reachable hs
  refine ⟨h.rooted.congr hblank.symm, marked_of_reachable h.rooted h.fresh.marked hs, ?_⟩
  rw [rootPlaces, roots_congr hblank, funext (place?_congr hblank)]
  exact h.places

/-- Resolution of the flags of an operation collects the values in the end or reports the issues. -/
theorem Declares.resolve_eq {op : Descriptor} (hop : op.WellFormed) {start s : FlagSet}
    (h : start.Declares (declarationsOf op)) (hs : Reachable start s) (hquiet : s.Quiet)
    (source : ValueSource) :
    s.resolve source =
      if s.resolutionIssues source = [] then
        .ok ⟨s.finalValues source false, s.finalValues source true⟩
      else .error (.usage (s.resolutionIssues source)) := by
  obtain ⟨hrooted, hmarked, hplaces⟩ := h.reached hs
  rw [FlagSet.resolve_eq hrooted hmarked source hquiet,
    Dict.ofList_of_sorted (sorted_finalValues hop hplaces source false),
    Dict.ofList_of_sorted (sorted_finalValues hop hplaces source true)]

section Conforming

variable {s : FlagSet} {op : Descriptor} {source : ValueSource}
  (hplaces : s.rootPlaces.map Place.declaration = declarationsOf op)
  (hnone : s.resolutionIssues source = [])

include hplaces hnone

/-- Without issues, every value is that of a declared property and conforms to its schema. -/
theorem conforms_of_mem_finalValues {isConfig : Bool} {e : String × Json}
    (he : e ∈ s.finalValues source isConfig) :
    ∃ schema, (e.1, schema) ∈ (op.inputSchema isConfig).properties ∧
      schema.problems e.2 = [] := by
  obtain ⟨id, hid, p, hp, rfl, hproperty, hvalue⟩ := mem_finalValues_iff.mp he
  have hdeclared : p.declaration ∈ declarationsOf op := by
    rw [← hplaces]
    exact List.mem_map_of_mem (List.mem_filterMap.mpr ⟨id, hid, hp⟩)
  obtain ⟨e', he', heq⟩ := mem_declarationsOf_iff.mp hdeclared
  have hname : e'.1 = e.1 := (congrArg Declaration.property heq).symm.trans hproperty
  have hschema : e'.2 = p.schema := (congrArg Declaration.schema heq).symm
  refine ⟨p.schema, by rw [← hname, ← hschema]; exact he', ?_⟩
  exact (reasons_eq_nil_iff hp).mp ((resolutionIssues_eq_nil_iff.mp hnone).1 id hid) e.2 hvalue

/-- Without issues, every required property has a value. -/
theorem contains_finalValues {isConfig : Bool} {e : String × Schema}
    (he : e ∈ (op.inputSchema isConfig).properties)
    (hrequired : (op.inputSchema isConfig).requires e.1) :
    Dict.contains (s.finalValues source isConfig) e.1 := by
  have hdeclared : (⟨isConfig, e.1, e.2, (op.inputSchema isConfig).requires e.1⟩ : Declaration) ∈
      declarationsOf op := mem_declarationsOf_iff.mpr ⟨e, he, rfl⟩
  rw [← hplaces] at hdeclared
  obtain ⟨p, hp, heq⟩ := List.mem_map.mp hdeclared
  obtain ⟨id, hid, hplace⟩ := List.mem_filterMap.mp hp
  have hlacks := (lacksValue_eq_false_iff hplace).mp
    ((resolutionIssues_eq_nil_iff.mp hnone).2 id hid)
  have hprequired : p.required := (congrArg Declaration.required heq).trans hrequired
  obtain ⟨v, hv⟩ := Option.ne_none_iff_exists'.mp (hlacks hprequired)
  exact Dict.contains_of_mem (e := (e.1, v)) (mem_finalValues_iff.mpr
    ⟨id, hid, p, hplace, congrArg Declaration.isConfig heq, congrArg Declaration.property heq, hv⟩)

end Conforming

/-! ## Resolution of reached flags -/

/-- In every state that is reached without a request for help, resolution succeeds exactly if all
values conform in the end and no required flag lacks one. It then returns exactly the values of the
flags, by property and kind; otherwise it reports every value that does not conform, in the order of
the flags, and then all required flags without a value in one issue. -/
theorem resolve_of_reachable {op : Descriptor} (hop : op.WellFormed) {reserved : List String}
    {extras : List (String × External)} {start s : FlagSet}
    (hstart : ofOperation op reserved extras = .ok start) (hs : Reachable start s)
    (hquiet : s.Quiet) (source : ValueSource) :
    ((∃ inputs, s.resolve source = .ok inputs) ↔
      ∀ id ∈ s.roots, ∃ p, s.place? id = some p ∧
        (∀ v, s.finalValue? source id = some v → p.schema.problems v = []) ∧
        (p.required → s.finalValue? source id ≠ none)) ∧
    (∀ inputs, s.resolve source = .ok inputs →
      inputs.parameters = s.finalValues source false ∧ Dict.Sorted inputs.parameters ∧
      inputs.configs = s.finalValues source true ∧ Dict.Sorted inputs.configs) ∧
    ∀ error, s.resolve source = .error error →
      error = .usage (s.invalidIssues source ++ missingEntry (s.missingNames source)) := by
  have hdeclares := declares_ofOperation hstart
  obtain ⟨hrooted, -, hplaces⟩ := hdeclares.reached hs
  have hresolve := hdeclares.resolve_eq hop hs hquiet source
  -- The two lists of issues are empty if each root flag is fine.
  have hissues : s.resolutionIssues source = [] ↔
      ∀ id ∈ s.roots, ∃ p, s.place? id = some p ∧
        (∀ v, s.finalValue? source id = some v → p.schema.problems v = []) ∧
        (p.required → s.finalValue? source id ≠ none) := by
    rw [resolutionIssues_eq_nil_iff, ← forall₂_and]
    refine forall₂_congr fun id hid => ?_
    obtain ⟨p, hp, -, -⟩ := hrooted.place_of_mem id hid
    rw [reasons_eq_nil_iff hp, lacksValue_eq_false_iff hp]
    simp [hp]
  rw [hresolve, ← hissues]
  refine ⟨?_, ?_, ?_⟩
  · split <;> simp_all
  · intro inputs hinputs
    split at hinputs
    next =>
      cases hinputs
      exact ⟨rfl, sorted_finalValues hop hplaces source false,
        rfl, sorted_finalValues hop hplaces source true⟩
    next => cases hinputs
  · intro error herror
    split at herror
    next => cases herror
    next =>
      cases herror
      rfl

/-- An operation with one required parameter and one config. -/
def resize : Descriptor :=
  { name := "resize", parameters := .object [("size", .integer)] ["size"]
    configs := .object [("zone", .string)] [] }

/-- The size is given and the zone comes from the surroundings. -/
theorem resolve_of_reachable_resize :
    ∃ start inputs, ofOperation resize [] [] = .ok start ∧
      (start.trySet Host.bare 0 "3").1.resolve (fun _ => some (.string "west")) = .ok inputs ∧
      inputs.configs =
        (start.trySet Host.bare 0 "3").1.finalValues (fun _ => some (.string "west")) true := by
  have hrun : (match ofOperation resize [] [] with
      | .error _ => false
      | .ok start =>
        match (start.trySet Host.bare 0 "3").1.resolve (fun _ => some (.string "west")) with
        | .error _ => false
        | .ok _ => true) = true := by decide +kernel
  split at hrun
  next => cases hrun
  next start hstart =>
    split at hrun
    next => cases hrun
    next inputs hinputs =>
      have hop : resize.WellFormed := ⟨List.pairwise_singleton _ _, List.pairwise_singleton _ _⟩
      obtain ⟨-, hcollected, -⟩ := resolve_of_reachable hop hstart (.set Host.bare 0 "3" .start)
        (quiet_of_resolve hinputs) (fun _ => some (.string "west"))
      exact ⟨start, inputs, hstart, hinputs, (hcollected inputs hinputs).2.2.1⟩

end FlagSet

end ApiCommand
