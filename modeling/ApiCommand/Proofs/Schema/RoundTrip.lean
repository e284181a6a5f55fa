import ApiCommand.Proofs.Schema.Reading

/-!
# Writing schemas that were read

The document that is written for a schema is the one with `Schema.written?` under each key, because
the extensions of a schema that was read are no keywords. It documents the schema again
(`Documents.toJson`), at every depth, and so it is read as the schema (`Documents.ofJson?_toJson`).
-/

namespace ApiCommand.Schema

open Json (Optional Defaulted ObjectOf)

/-! ## What is written -/

/-- The members of a schema's document. -/
def members (s : Schema) : Dict Json :=
  Dict.ofList (propertiesMember s.properties ++ itemsMember s.items ++ plainMembers s)

theorem toJson_eq_object (s : Schema) : toJson s = .object s.members := by
  cases s
  rw [toJson]
  rfl

/-- The member of a schema's document under a key. -/
def written? (s : Schema) (key : String) : Option Json :=
  match key with
  | "type" => if s.types.isEmpty then none else some (typesJson s.types)
  | "properties" => if s.properties.isEmpty then none else some (.object (eachToJson s.properties))
  | "required" => if s.required.isEmpty then none else some (.strings s.required)
  | "items" => s.items.map toJson
  | "enum" => if s.enumValues.isEmpty then none else some (.array s.enumValues)
  | "default" => s.defaultValue
  | "example" => s.exampleValue
  | "title" => s.title.map .string
  | "description" => s.description.map .string
  | "format" => s.format.map .string
  | "additionalProperties" => s.additional
  | "nullable" => if s.nullable then some (.bool true) else none
  | key => Dict.get? s.extensions key

/-- Properties are written if there are any. -/
theorem mem_propertiesMember_iff {properties : Dict Schema} {e : String × Json} :
    e ∈ propertiesMember properties ↔
      properties.isEmpty = false ∧ e = ("properties", .object (eachToJson properties)) := by
  cases properties <;> simp [propertiesMember]

theorem mem_itemsMember_iff {items : Option Schema} {e : String × Json} :
    e ∈ itemsMember items ↔ ∃ t, items = some t ∧ e = ("items", toJson t) := by
  cases items <;> simp [itemsMember]

/-- What is no keyword is written from the extensions. -/
theorem written?_of_not_mem {s : Schema} {key : String} (hkey : key ∉ keywords) :
    written? s key = Dict.get? s.extensions key := by
  simp only [mem_keywords_iff, not_or] at hkey
  simp [written?, hkey]

/-- The extensions are no keywords, so each member is written once. -/
theorem mem_entries_iff {s : Schema} (hsorted : Dict.Sorted s.extensions)
    (hextensions : ∀ e ∈ s.extensions, e.1 ∉ keywords) {key : String} {v : Json} :
    (key, v) ∈ propertiesMember s.properties ++ itemsMember s.items ++ plainMembers s ↔
      written? s key = some v := by
  -- Under a keyword stands no extension, and under any other key nothing else.
  by_cases hkey : key ∈ keywords
  · have hnot : (key, v) ∉ s.extensions := fun h => hextensions _ h hkey
    rw [mem_keywords_iff] at hkey
    rcases hkey with rfl | rfl | rfl | rfl | rfl | rfl | rfl | rfl | rfl | rfl | rfl | rfl <;>
      simp [written?, mem_propertiesMember_iff, mem_itemsMember_iff, plainMembers,
        Json.textsMember, Json.textMember, Json.valueMember, hnot, @eq_comm _ v]
  · rw [written?_of_not_mem hkey]
    have hne : ∀ keyword ∈ keywords, keyword ≠ key := fun _ hkeyword heq => hkey (heq ▸ hkeyword)
    simp only [mem_keywords_iff, not_or] at hkey
    simp only [keywords, List.forall_mem_cons] at hne
    rw [Dict.get?_eq_some_iff hsorted]
    simp [mem_propertiesMember_iff, mem_itemsMember_iff, plainMembers, Json.textsMember,
      Json.textMember, Json.valueMember, hkey, hne]

/-- Looking up a key in what is written. -/
theorem get?_members {s : Schema} (hsorted : Dict.Sorted s.extensions)
    (hextensions : ∀ e ∈ s.extensions, e.1 ∉ keywords) (key : String) :
    Dict.get? s.members key = written? s key := by
  -- The last entry with a key counts, but there is only one.
  rw [members, Dict.get?_ofList]
  refine Dict.get?_eq_of_forall_mem_iff fun v => ?_
  rw [List.mem_reverse, mem_entries_iff hsorted hextensions]

theorem eachToJson_eq_mapValues (properties : Dict Schema) :
    eachToJson properties = Dict.mapValues toJson properties := by
  induction properties with
  | nil => rw [eachToJson]; rfl
  | cons e rest ih => rw [eachToJson, ih]; rfl

/-- The properties that are written are the documents of their schemas. -/
theorem eq_mapValues_of_written? {s : Schema} {schemas : Dict Json}
    (h : written? s "properties" = some (.object schemas)) :
    schemas = Dict.mapValues toJson s.properties := by
  rw [← eachToJson_eq_mapValues]
  have hproperties :
      (if s.properties.isEmpty then none else some (Json.object (eachToJson s.properties))) =
        some (Json.object schemas) := h
  split at hproperties
  next => cases hproperties
  next =>
    cases hproperties
    rfl

/-! ## What is written documents the schema -/

/-- Types are written as a text if there is one, and as a list otherwise. -/
theorem isTypes_typesJson (names : List String) : IsTypes (typesJson names) names := by
  unfold typesJson
  split
  next name => exact .one name
  next => exact .list names

/-- No keyword is an extension. -/
theorem ExtensionsOf.not_keyword {members extensions : Dict Json}
    (h : ExtensionsOf members extensions) : ∀ e ∈ extensions, e.1 ∉ keywords := by
  intro e he hkey
  have hnone := h e.1
  rw [if_pos hkey] at hnone
  exact Dict.get?_eq_none_iff.mp hnone (Dict.contains_of_mem he)

theorem toJson_ne_null (s : Schema) : toJson s ≠ .null := by
  rw [toJson_eq_object]
  exact Json.noConfusion

section Describes

variable {R R' : Json → Schema → Prop} {v : Json} {s : Schema}

/-- The document that is written for a schema has a member for each field that says something. -/
theorem Describes.get?_members (h : Describes R v s) (key : String) :
    Dict.get? s.members key = written? s key := by
  cases h with
  | object _ _ _ _ _ _ _ _ _ _ _ _ hsorted hextensions =>
    exact Schema.get?_members hsorted hextensions.not_keyword key

/-- If the schemas inside are documented by what is written for them, the whole schema is. -/
theorem Describes.toJson (h : Describes R v s)
    (hinner : ∀ w t, Subdocument w v → R w t → R' (toJson t) t) : Describes R' s.toJson s := by
  -- Documents inside are written first.
  have hproperties : ObjectOf R' (.object (eachToJson s.properties)) s.properties := by
    refine .object h.sorted_properties fun name => ?_
    rw [eachToJson_eq_mapValues, Dict.get?_mapValues]
    cases ht : Dict.get? s.properties name with
    | none => exact .none
    | some t =>
      obtain ⟨w, hw, hR⟩ := h.of_property ht
      exact .some (hinner w t hw hR)
  have hitems : ∀ t, s.items = some t → R' t.toJson t := fun t ht => by
    obtain ⟨w, hw, hR⟩ := h.of_items ht
    exact hinner w t hw hR
  -- The members are looked up by keyword, each of which is written for its own field.
  have hget := h.get?_members
  rw [toJson_eq_object]
  cases h with
  | object _ _ _ _ _ hdefault hexample _ _ _ hadditional _ hsorted hextensions =>
    constructor
    case hsorted => exact hsorted
    case hextensions =>
      intro key
      rw [hget, hextensions]
      split
      next => rfl
      next hkey => rw [written?_of_not_mem hkey, hextensions, if_neg hkey]
    all_goals rw [hget]
    case htypes => exact Defaulted.unless_isEmpty fun _ => isTypes_typesJson _
    case hproperties => exact Defaulted.unless_isEmpty fun _ => hproperties
    case hrequired => exact Defaulted.unless_isEmpty fun _ => rfl
    case hitems => exact Optional.of_map toJson_ne_null hitems
    case henum => exact Defaulted.unless_isEmpty fun _ => rfl
    case hdefault => exact hdefault.self
    case hexample => exact hexample.self
    case htitle => exact Optional.of_map (fun _ => Json.noConfusion) fun _ _ => rfl
    case hdescription => exact Optional.of_map (fun _ => Json.noConfusion) fun _ _ => rfl
    case hformat => exact Optional.of_map (fun _ => Json.noConfusion) fun _ _ => rfl
    case hadditional => exact hadditional.self
    case hnullable =>
      show Defaulted _ false (if s.nullable then some (.bool true) else none) s.nullable
      cases s.nullable with
      | false => exact .absent
      | true => exact .value rfl

end Describes

/-- What is written for a schema that was read documents this schema. -/
theorem Documents.toJson {v : Json} {s : Schema} (h : Documents v s) : Documents s.toJson s := by
  induction v using subdocument_wf.induction generalizing s with
  | _ v ih =>
    cases h with
    | intro h => exact .intro (h.toJson fun w t hw ht => ih w hw ht)

/-- Documents inside of a written document are written for a property or for items. -/
theorem Describes.of_subdocument_toJson {R : Json → Schema → Prop} {v w' : Json} {s : Schema}
    (h : Describes R v s) (hw' : Subdocument w' s.toJson) :
    ∃ w t, Subdocument w v ∧ R w t ∧ w' = t.toJson := by
  have hget := h.get?_members
  rw [toJson_eq_object] at hw'
  cases hw' with
  | items hitems =>
    rw [hget] at hitems
    obtain ⟨t, ht, rfl⟩ := Option.map_eq_some_iff.mp hitems
    obtain ⟨w, hw, hR⟩ := h.of_items ht
    exact ⟨w, t, hw, hR, rfl⟩
  | @property _ schemas name _ hproperties hname =>
    rw [hget] at hproperties
    rw [eq_mapValues_of_written? hproperties, Dict.get?_mapValues] at hname
    obtain ⟨t, ht, rfl⟩ := Option.map_eq_some_iff.mp hname
    obtain ⟨w, hw, hR⟩ := h.of_property ht
    exact ⟨w, t, hw, hR, rfl⟩

/-- A document that is written for a schema is unambiguous. -/
theorem Documents.unambiguous_toJson {v : Json} {s : Schema} (h : Documents v s) :
    Unambiguous s.toJson := by
  induction v using subdocument_wf.induction generalizing s with
  | _ v ih =>
    cases h with
    | intro h =>
      refine .intro (fun members hmembers => ?_) (fun members schemas hmembers hschemas => ?_)
        fun w hw => ?_
      · rw [toJson_eq_object] at hmembers
        cases hmembers
        exact Dict.sorted_ofList _
      · rw [toJson_eq_object] at hmembers
        cases hmembers
        rw [h.get?_members] at hschemas
        rw [eq_mapValues_of_written? hschemas]
        exact h.sorted_properties.mapValues _
      · -- What is inside was written for a schema inside, which a document inside of `v` documents.
        obtain ⟨w₀, t, hw₀, ht, rfl⟩ := h.of_subdocument_toJson hw
        exact ih w₀ hw₀ ht

/-- Reading what is written for a schema that was read gives the schema again. -/
theorem Documents.ofJson?_toJson {v : Json} {s : Schema} (h : Documents v s) :
    ofJson? s.toJson = some s :=
  (ofJson?_eq_some_iff h.unambiguous_toJson).mpr h.toJson

end ApiCommand.Schema
