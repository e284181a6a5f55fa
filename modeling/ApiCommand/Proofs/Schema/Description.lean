import ApiCommand.Proofs.Json.Member
import ApiCommand.Schema.Document

/-!
# Descriptions of schemas

What a document says about a schema, as a relation between the two: each keyword has its own field,
with a default where it is absent, and the members under all other keys are the extensions
(`Schema.Describes`). As properties and items are schemas again, a document of a schema is one that
describes it with documents inside (`Schema.Documents`). A document has one schema
(`Documents.unique`).
-/

namespace ApiCommand.Schema

open Json (Optional Defaulted ObjectOf)

/-! ## What documents describe -/

/-- One type is written as a text or, like any other number of types, as a list. -/
inductive IsTypes : Json → List String → Prop
  | one (name : String) : IsTypes (.string name) [name]
  | list (names : List String) : IsTypes (Json.strings names) names

/-- The keys that have a field of their own. -/
def keywords : List String :=
  ["type", "properties", "required", "items", "enum", "default", "example", "title", "description",
    "format", "additionalProperties", "nullable"]

theorem mem_keywords_iff {key : String} :
    key ∈ keywords ↔ key = "type" ∨ key = "properties" ∨ key = "required" ∨ key = "items" ∨
      key = "enum" ∨ key = "default" ∨ key = "example" ∨ key = "title" ∨ key = "description" ∨
      key = "format" ∨ key = "additionalProperties" ∨ key = "nullable" := by
  simp only [keywords, List.mem_cons, List.not_mem_nil, or_false]

/-- The extensions of a document are its members under other keys than keywords. -/
def ExtensionsOf (members extensions : Dict Json) : Prop :=
  ∀ key, Dict.get? extensions key = if key ∈ keywords then none else Dict.get? members key

/-- The document describes the schema: each keyword its own field, and all other members the
extensions. Documents inside of it describe schemas in the sense of `R`. -/
inductive Describes (R : Json → Schema → Prop) : Json → Schema → Prop
  | object {members : Dict Json} {s : Schema}
      (htypes : Defaulted IsTypes [] (Dict.get? members "type") s.types)
      (hproperties : Defaulted (ObjectOf R) [] (Dict.get? members "properties") s.properties)
      (hrequired : Defaulted (· = .strings ·) [] (Dict.get? members "required") s.required)
      (hitems : Optional R (Dict.get? members "items") s.items)
      (henum : Defaulted (· = .array ·) [] (Dict.get? members "enum") s.enumValues)
      (hdefault : Optional (· = ·) (Dict.get? members "default") s.defaultValue)
      (hexample : Optional (· = ·) (Dict.get? members "example") s.exampleValue)
      (htitle : Optional (· = .string ·) (Dict.get? members "title") s.title)
      (hdescription : Optional (· = .string ·) (Dict.get? members "description") s.description)
      (hformat : Optional (· = .string ·) (Dict.get? members "format") s.format)
      (hadditional : Optional (· = ·) (Dict.get? members "additionalProperties") s.additional)
      (hnullable : Defaulted (· = .bool ·) false (Dict.get? members "nullable") s.nullable)
      (hsorted : Dict.Sorted s.extensions)
      (hextensions : ExtensionsOf members s.extensions) :
      Describes R (.object members) s

/-- The document describes the schema, and so do all documents inside of it. -/
inductive Documents : Json → Schema → Prop
  | intro {v : Json} {s : Schema} (h : Describes Documents v s) : Documents v s

/-! ## Documents inside of documents -/

/-- The value is where the document of a schema has the document of another. -/
inductive Subdocument : Json → Json → Prop
  | items {members : Dict Json} {v : Json} (h : Dict.get? members "items" = some v) :
      Subdocument v (.object members)
  | property {members properties : Dict Json} {name : String} {v : Json}
      (hproperties : Dict.get? members "properties" = some (.object properties))
      (h : Dict.get? properties name = some v) : Subdocument v (.object members)

theorem sizeOf_lt_of_get?_eq_some {members : Dict Json} {key : String} {v : Json}
    (h : Dict.get? members key = some v) : sizeOf v < sizeOf (Json.object members) := by
  have hlt := List.sizeOf_lt_of_mem (Dict.mem_of_get?_eq_some h)
  simp only [Prod.mk.sizeOf_spec] at hlt
  simp only [Json.object.sizeOf_spec]
  omega

/-- A document inside of another one is smaller. -/
theorem Subdocument.sizeOf_lt {v w : Json} (h : Subdocument v w) : sizeOf v < sizeOf w := by
  cases h with
  | items h => exact sizeOf_lt_of_get?_eq_some h
  | property hproperties h =>
    exact Nat.lt_trans (sizeOf_lt_of_get?_eq_some h) (sizeOf_lt_of_get?_eq_some hproperties)

/-- What holds of a document if it holds of the documents inside holds of all documents. -/
theorem subdocument_wf : WellFounded Subdocument :=
  Subrelation.wf Subdocument.sizeOf_lt (measure (sizeOf : Json → Nat)).wf

section Describes

variable {R R' : Json → Schema → Prop} {v : Json} {s s' : Schema}

/-- The documents inside may be read in another sense if it follows for each of them. -/
theorem Describes.imp (h : Describes R v s) (himp : ∀ w t, Subdocument w v → R w t → R' w t) :
    Describes R' v s := by
  cases h with
  | @object members _ htypes hproperties hrequired hitems henum hdefault hexample htitle
      hdescription hformat hadditional hnullable hsorted hextensions =>
    have hproperties' :
        Defaulted (ObjectOf R') [] (Dict.get? members "properties") s.properties := by
      refine hproperties.imp fun w d hw h => ?_
      cases w with
      | object properties => exact h.imp fun name u t hu => himp u t (.property hw hu)
      | _ => cases h
    have hitems' : Optional R' (Dict.get? members "items") s.items :=
      hitems.imp fun w t hw => himp w t (.items hw)
    exact .object htypes hproperties' hrequired hitems' henum hdefault hexample htitle hdescription
      hformat hadditional hnullable hsorted hextensions

/-- The properties of a schema that a document describes ascend. -/
theorem Describes.sorted_properties (h : Describes R v s) : Dict.Sorted s.properties := by
  cases h with
  | @object members _ _ hproperties =>
    generalize Dict.get? members "properties" = o at hproperties
    generalize s.properties = properties at hproperties ⊢
    cases hproperties with
    | absent => exact Dict.sorted_nil
    | value h => exact h.sorted

/-- The schema of a property is described by a document inside. -/
theorem Describes.of_property (h : Describes R v s) {name : String} {t : Schema}
    (ht : Dict.get? s.properties name = some t) : ∃ w, Subdocument w v ∧ R w t := by
  cases h with
  | @object members _ _ hproperties =>
    generalize hschemas : Dict.get? members "properties" = o at hproperties
    generalize s.properties = properties at hproperties ht
    cases hproperties with
    | absent => cases ht
    | @value v _ h =>
      cases v with
      | object schemas =>
        obtain ⟨w, hw, hR⟩ := h.exists_member ht
        exact ⟨w, .property hschemas hw, hR⟩
      | _ => cases h

/-- The schema of items is described by a document inside. -/
theorem Describes.of_items (h : Describes R v s) {t : Schema} (ht : s.items = some t) :
    ∃ w, Subdocument w v ∧ R w t := by
  cases h with
  | @object members _ _ _ _ hitems =>
    rw [ht] at hitems
    generalize hw : Dict.get? members "items" = o at hitems
    cases hitems with
    | value _ hR => exact ⟨_, .items hw, hR⟩

/-! ## Uniqueness -/

/-- A document stands for one list of types. -/
theorem IsTypes.unique {names names' : List String} (h : IsTypes v names) (h' : IsTypes v names') :
    names = names' := by
  cases h with
  | one name => cases h'; rfl
  | list names =>
    generalize hv : Json.strings names = v at h'
    cases h' with
    | one => cases hv
    | list => exact Json.strings_inj hv

/-- A document describes at most one schema if each document inside of it does. -/
theorem Describes.unique (h : Describes R v s) (h' : Describes R' v s')
    (hunique : ∀ w t t', R w t → R' w t' → t = t') : s = s' := by
  have hvalue : ∀ w a b : Json, w = a → w = b → a = b := fun _ _ _ h h' => h.symm.trans h'
  have htext : ∀ (w : Json) a b, w = .string a → w = .string b → a = b := fun _ _ _ h h' =>
    Json.string.inj (h.symm.trans h')
  cases h with
  | object htypes hproperties hrequired hitems henum hdefault hexample htitle hdescription
      hformat hadditional hnullable hsorted hextensions =>
    cases h' with
    | object htypes' hproperties' hrequired' hitems' henum' hdefault' hexample' htitle'
        hdescription' hformat' hadditional' hnullable' hsorted' hextensions' =>
      -- Field by field.
      cases s
      cases s'
      congr 1
      · exact htypes.unique htypes' fun _ _ _ => IsTypes.unique
      · exact hproperties.unique hproperties' fun _ _ _ h h' => h.unique h' hunique
      · exact hrequired.unique hrequired' fun _ _ _ h h' => Json.strings_inj (h.symm.trans h')
      · exact hitems.unique hitems' hunique
      · exact henum.unique henum' fun _ _ _ h h' => Json.array.inj (h.symm.trans h')
      · exact hdefault.unique hdefault' hvalue
      · exact hexample.unique hexample' hvalue
      · exact htitle.unique htitle' htext
      · exact hdescription.unique hdescription' htext
      · exact hformat.unique hformat' htext
      · exact hadditional.unique hadditional' hvalue
      · exact hnullable.unique hnullable' fun _ _ _ h h' => Json.bool.inj (h.symm.trans h')
      · exact hsorted.ext hsorted' fun key => (hextensions key).trans (hextensions' key).symm

end Describes

/-- A document documents one schema. -/
theorem Documents.unique {v : Json} {s s' : Schema} (h : Documents v s) (h' : Documents v s') :
    s = s' := by
  induction v using subdocument_wf.induction generalizing s s' with
  | _ v ih =>
    cases h with
    | intro h =>
      cases h' with
      | intro h' =>
        -- The documents inside have to be remembered as such, for uniqueness is known only of them.
        have hinner := h.imp fun w t hw ht => show Documents w t ∧ Subdocument w v from ⟨ht, hw⟩
        exact hinner.unique h' fun w t t' ht ht' => ih w ht.2 ht.1 ht'

end ApiCommand.Schema
