import ApiCommand.Proofs.Schema.RoundTrip

/-!
# What becomes of a document

A document that is read and written again is the same but for what says nothing: keywords with the
values that stand for their absence are left out, and a list of one type becomes this type
(`Schema.Condensed`). So nothing that a document says is lost on the way and nothing is added to it,
however deep it is (`ofJson?_toJson_of_ofJson?`).
-/

namespace ApiCommand.Schema

open Json (Optional Defaulted ObjectOf)

/-! ## Condensed documents -/

/-- The value of a keyword that says no more than the absence of the keyword. -/
def blank? (key : String) : Option Json :=
  match key with
  | "type" | "required" | "enum" => some (.array [])
  | "properties" => some (.object [])
  | "items" | "default" | "example" | "title" | "description" | "format" | "additionalProperties" =>
    some .null
  | "nullable" => some (.bool false)
  | _ => none

/-- What becomes of a member of a document. Only blank ones are left out and none is added, a single
type is not written as a list, and documents inside become what `R` says. -/
inductive Condenses (R : Json → Json → Prop) : String → Option Json → Option Json → Prop
  | absent {key : String} : Condenses R key none none
  | blank {key : String} {v : Json} (h : blank? key = some v) : Condenses R key (some v) none
  | oneType {v : Json} {name : String} (h : IsTypes v [name]) :
      Condenses R "type" (some v) (some (.string name))
  | severalTypes {first second : String} {names : List String} :
      Condenses R "type" (some (.strings (first :: second :: names)))
        (some (.strings (first :: second :: names)))
  | properties {schemas : Dict Json} {schemas' : Dict Json} (hne : schemas ≠ [])
      (h : ObjectOf R (.object schemas) schemas') :
      Condenses R "properties" (some (.object schemas)) (some (.object schemas'))
  | items {v w : Json} (hnull : v ≠ .null) (h : R v w) : Condenses R "items" (some v) (some w)
  | same {key : String} {v : Json} (hkey : key ∉ ["type", "properties", "items"])
      (h : blank? key ≠ some v) : Condenses R key (some v) (some v)

/-- The second document is the first, with everything left out at any depth that says nothing. -/
inductive Condensed : Json → Json → Prop
  | object {members written : Dict Json} (hsorted : Dict.Sorted written)
      (hmembers : ∀ key, Condenses Condensed key (Dict.get? members key) (Dict.get? written key)) :
      Condensed (.object members) (.object written)

/-! ## Member by member -/

section Members

variable {α : Type} {R : Json → Json → Prop} {key : String} {o : Option Json}

/-- A field that may be missing is not written if it is. -/
theorem condenses_optional {value : Option Json} (hkey : key ∉ ["type", "properties", "items"])
    (hblank : blank? key = some .null) (h : Optional (· = ·) o value) :
    Condenses R key o value := by
  cases h with
  | absent => exact .absent
  | null => exact .blank hblank
  | value hnull h =>
    subst h
    refine .same hkey fun heq => hnull ?_
    exact Option.some.inj (heq.symm.trans hblank)

/-- A list is not written if it is empty. -/
theorem condenses_list {items : List α} {write : List α → Json}
    (hkey : key ∉ ["type", "properties", "items"]) (hblank : blank? key = some (write []))
    (hinj : ∀ items, write items = write [] → items = []) (h : Defaulted (· = write ·) [] o items) :
    Condenses R key o (if items.isEmpty then none else some (write items)) := by
  cases h with
  | absent => exact .absent
  | value h =>
    subst h
    cases items with
    | nil => exact .blank hblank
    | cons item items =>
      refine .same hkey fun heq => ?_
      have hnil := hinj _ (Option.some.inj (heq.symm.trans hblank))
      cases hnil

/-- A single type is written as a text, and no types are not written. -/
theorem condenses_types {types : List String} (h : Defaulted IsTypes [] o types) :
    Condenses R "type" o (if types.isEmpty then none else some (typesJson types)) := by
  cases h with
  | absent => exact .absent
  | value h =>
    cases h with
    | one name => exact .oneType (.one name)
    | list =>
      match types with
      | [] => exact .blank rfl
      | [name] => exact .oneType (.list [name])
      | first :: second :: names => exact .severalTypes

end Members

section Describes

variable {R : Json → Schema → Prop} {R' : Json → Json → Prop} {v : Json} {s : Schema}

/-- Properties are written under their names, unless there are none. -/
theorem condenses_properties {properties : Dict Schema} {o : Option Json}
    (h : Defaulted (ObjectOf R) [] o properties)
    (hinner : ∀ schemas name w t, o = some (.object schemas) → Dict.get? schemas name = some w →
      R w t → R' w t.toJson) :
    Condenses R' "properties" o
      (if properties.isEmpty then none else some (.object (eachToJson properties))) := by
  cases h with
  | absent => exact .absent
  | @value v _ h =>
    cases v with
    | object schemas =>
      -- An object of no properties is blank, and then the schema has none.
      cases hproperties : properties.isEmpty with
      | true =>
        rw [h.eq_nil_iff.mpr (List.isEmpty_iff.mp hproperties)]
        exact .blank rfl
      | false =>
        have hne : schemas ≠ [] := fun hnil => by
          rw [h.eq_nil_iff.mp hnil] at hproperties
          cases hproperties
        rw [eachToJson_eq_mapValues]
        exact .properties hne (h.mapValues fun name w t => hinner schemas name w t rfl)
    | _ => cases h

/-- The schema of items is written if there is one. -/
theorem condenses_items {items : Option Schema} {o : Option Json} (h : Optional R o items)
    (hinner : ∀ w t, o = some w → R w t → R' w t.toJson) :
    Condenses R' "items" o (items.map toJson) := by
  cases h with
  | absent => exact .absent
  | null => exact .blank rfl
  | value hnull h => exact .items hnull (hinner _ _ rfl h)

/-- A schema that is not nullable does not say so. -/
theorem condenses_nullable {nullable : Bool} {o : Option Json}
    (h : Defaulted (· = .bool ·) false o nullable) :
    Condenses R' "nullable" o (if nullable then some (.bool true) else none) := by
  cases h with
  | absent => exact .absent
  | value h =>
    subst h
    cases nullable with
    | false => exact .blank rfl
    | true => exact .same (by decide) (by simp [blank?])

theorem blank?_of_not_mem {key : String} (hkey : key ∉ keywords) : blank? key = none := by
  simp only [mem_keywords_iff, not_or] at hkey
  simp [blank?, hkey]

/-- A member that is no keyword is written as it is. -/
theorem condenses_extension {key : String} (hkey : key ∉ keywords) (o : Option Json) :
    Condenses R' key o o := by
  cases o with
  | none => exact .absent
  | some v =>
    refine .same (fun hmem => hkey ?_) (by simp [blank?_of_not_mem hkey])
    simp only [List.mem_cons, List.not_mem_nil, or_false] at hmem
    rcases hmem with rfl | rfl | rfl <;> decide

/-- Writing what a document describes condenses each of its members. -/
theorem Describes.condenses {members : Dict Json} (h : Describes R (.object members) s)
    (hinner : ∀ w t, Subdocument w (.object members) → R w t → R' w t.toJson) (key : String) :
    Condenses R' key (Dict.get? members key) (written? s key) := by
  cases h with
  | object htypes hproperties hrequired hitems henum hdefault hexample htitle hdescription
      hformat hadditional hnullable hsorted hextensions =>
    by_cases hkey : key ∈ keywords
    · rw [mem_keywords_iff] at hkey
      -- One case for each keyword, in the order of the list.
      rcases hkey with rfl | rfl | rfl | rfl | rfl | rfl | rfl | rfl | rfl | rfl | rfl | rfl
      · exact condenses_types htypes
      · exact condenses_properties hproperties fun _ _ w t hschemas hw =>
          hinner w t (.property hschemas hw)
      · exact condenses_list (by decide) rfl (fun _ => Json.strings_inj) hrequired
      · exact condenses_items hitems fun w t hw => hinner w t (.items hw)
      · exact condenses_list (by decide) rfl (fun _ => Json.array.inj) henum
      · exact condenses_optional (by decide) rfl hdefault
      · exact condenses_optional (by decide) rfl hexample
      · exact condenses_optional (by decide) rfl htitle.map_string
      · exact condenses_optional (by decide) rfl hdescription.map_string
      · exact condenses_optional (by decide) rfl hformat.map_string
      · exact condenses_optional (by decide) rfl hadditional
      · exact condenses_nullable hnullable
    · -- All other members are extensions, which are written as they are.
      rw [written?_of_not_mem hkey, hextensions, if_neg hkey]
      exact condenses_extension hkey _

end Describes

/-! ## Reading and writing -/

/-- What is written for a schema is the condensed form of each of its documents. -/
theorem Documents.condensed {v : Json} {s : Schema} (h : Documents v s) :
    Condensed v s.toJson := by
  induction v using subdocument_wf.induction generalizing s with
  | _ v ih =>
    cases h with
    | intro h =>
      rw [toJson_eq_object]
      have hget := h.get?_members
      cases v with
      | object members =>
        refine .object (Dict.sorted_ofList _) fun key => ?_
        show Condenses Condensed key _ (Dict.get? s.members key)
        rw [hget]
        exact h.condenses (fun w t hw ht => ih w hw ht) key
      | _ => cases h

/-- A schema that was read is read again from what is written for it, and then the same is written.
Both documents have the keywords, properties, items and extensions that the schema has, at every
depth, and of the first nothing is left out in the second but what says nothing. -/
theorem ofJson?_toJson_of_ofJson? {v : Json} {s : Schema} (h : ofJson? v = some s) :
    ofJson? s.toJson = some s ∧ (ofJson? s.toJson).map toJson = some s.toJson ∧ Documents v s ∧
      Documents s.toJson s ∧ Condensed v s.toJson := by
  have hdocuments := documents_of_ofJson? h
  have hread := hdocuments.ofJson?_toJson
  exact ⟨hread, by rw [hread, Option.map_some], hdocuments, hdocuments.toJson, hdocuments.condensed⟩

/-- A list of one type, an empty list and a null are normalized, also inside of a property and of
items, and an extension is kept. -/
theorem ofJson?_toJson_of_ofJson?_labels :
    ∃ v s, ofJson? v = some s ∧
      v = .object [("default", .null), ("enum", .array [.null, .string "a"]),
        ("items", .object [("type", .strings ["string"])]),
        ("properties", .object [("size", .object [("required", .array [])])]),
        ("type", .strings ["array"]), ("x-order", .int 3)] ∧
      s.toJson = .object [("enum", .array [.null, .string "a"]),
        ("items", .object [("type", .string "string")]),
        ("properties", .object [("size", .object [])]), ("type", .string "array"),
        ("x-order", .int 3)] ∧
      ofJson? s.toJson = some s ∧ (ofJson? s.toJson).map toJson = some s.toJson ∧
      Documents v s ∧ Documents s.toJson s ∧ Condensed v s.toJson := by
  have hread : ofJson? (.object [("default", .null), ("enum", .array [.null, .string "a"]),
      ("items", .object [("type", .strings ["string"])]),
      ("properties", .object [("size", .object [("required", .array [])])]),
      ("type", .strings ["array"]), ("x-order", .int 3)]) =
      some
        { types := ["array"]
          properties := [("size", {})]
          items := some { types := ["string"] }
          enumValues := [.null, .string "a"]
          extensions := [("x-order", .int 3)] } := by rfl
  refine ⟨_, _, hread, rfl, ?_, ofJson?_toJson_of_ofJson? hread⟩
  simp only [toJson, propertiesMember, itemsMember, eachToJson]
  rfl

end ApiCommand.Schema
