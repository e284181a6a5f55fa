import ApiCommand.Proofs.Schema.Description

/-!
# Reading schemas

A schema is read member by member, and each member sets the field of its keyword or adds an
extension (`Schema.Adds`). So what is read documents the schema that it is read as
(`documents_of_ofJson?`). Conversely, every document of a schema is read as this schema, unless
there are two members with one key somewhere (`ofJson?_eq_some_iff`).
-/

namespace ApiCommand.Schema

open Json (Optional Defaulted ObjectOf)

/-! ## Reading members -/

/-- Adds any member of a document to a schema, also one that holds schemas itself. -/
def readMember? (s : Schema) (key : String) (v : Json) : Option Schema :=
  if key = "properties" then
    match v with
    | .object schemas => (ofEach? schemas).map fun properties => { s with properties }
    | _ => none
  else if key = "items" then
    match v with
    | .null => some { s with items := none }
    | v => (ofJson? v).map fun items => { s with items := some items }
  else addMember? s key v

theorem ofMembers?_nil : ofMembers? [] = some {} := by rw [ofMembers?]

/-- Members are read from the last one on, so that the first of a key has the last word. -/
theorem ofMembers?_cons (key : String) (v : Json) (rest : Dict Json) :
    ofMembers? ((key, v) :: rest) = (ofMembers? rest).bind fun s => readMember? s key v := by
  rw [ofMembers?]
  rfl

/-- Types are read from a text or a list. -/
theorem typesOf?_eq_some_iff {v : Json} {names : List String} :
    typesOf? v = some names ↔ IsTypes v names := by
  constructor
  · intro h
    unfold typesOf? at h
    split at h
    next name =>
      cases h
      exact .one name
    next v _ =>
      rw [Json.texts?_eq_some_iff.mp h]
      exact .list names
  · rintro (name | names)
    · rfl
    · exact Json.texts?_eq_some_iff.mpr rfl

/-- A text that may be missing is read from a string or null. -/
theorem optionalText?_eq_some_iff {v : Json} {o : Option String} :
    addMember?.optionalText? v = some o ↔ Optional (· = .string ·) (some v) o := by
  constructor
  · intro h
    unfold addMember?.optionalText? at h
    split at h
    next =>
      cases h
      exact .null
    next v hnull =>
      obtain ⟨text, htext, rfl⟩ := Option.map_eq_some_iff.mp h
      exact .value hnull (Json.asString?_eq_some_iff.mp htext)
  · intro h
    cases h with
    | null => rfl
    | value _ h =>
      subst h
      rfl

/-- What a member of a document does to a schema when it is added: the field of its keyword becomes
what the value stands for. Documents in the value stand for schemas in the sense of `R`. -/
inductive Adds (R : Json → Schema → Prop) (s : Schema) (v : Json) : String → Schema → Prop
  | types {types : List String} (h : Defaulted IsTypes [] (some v) types) :
      Adds R s v "type" { s with types }
  | properties {properties : Dict Schema} (h : Defaulted (ObjectOf R) [] (some v) properties) :
      Adds R s v "properties" { s with properties }
  | required {required : List String} (h : Defaulted (· = .strings ·) [] (some v) required) :
      Adds R s v "required" { s with required }
  | items {items : Option Schema} (h : Optional R (some v) items) :
      Adds R s v "items" { s with items }
  | enumValues {enumValues : List Json} (h : Defaulted (· = .array ·) [] (some v) enumValues) :
      Adds R s v "enum" { s with enumValues }
  | defaultValue {defaultValue : Option Json} (h : Optional (· = ·) (some v) defaultValue) :
      Adds R s v "default" { s with defaultValue }
  | exampleValue {exampleValue : Option Json} (h : Optional (· = ·) (some v) exampleValue) :
      Adds R s v "example" { s with exampleValue }
  | title {title : Option String} (h : Optional (· = .string ·) (some v) title) :
      Adds R s v "title" { s with title }
  | description {description : Option String}
      (h : Optional (· = .string ·) (some v) description) :
      Adds R s v "description" { s with description }
  | format {format : Option String} (h : Optional (· = .string ·) (some v) format) :
      Adds R s v "format" { s with format }
  | additional {additional : Option Json} (h : Optional (· = ·) (some v) additional) :
      Adds R s v "additionalProperties" { s with additional }
  | nullable {nullable : Bool} (h : Defaulted (· = .bool ·) false (some v) nullable) :
      Adds R s v "nullable" { s with nullable }
  | extension {key : String} (hkey : key ∉ keywords) :
      Adds R s v key { s with extensions := Dict.insert s.extensions key v }

/-- The schemas of properties are read one by one. -/
theorem objectOf_of_ofEach? {schemas : Dict Json} {properties : Dict Schema}
    (h : ofEach? schemas = some properties) :
    ObjectOf (ofJson? · = some ·) (.object schemas) properties := by
  induction schemas generalizing properties with
  | nil =>
    rw [ofEach?] at h
    cases h
    exact .object Dict.sorted_nil fun _ => .none
  | cons e schemas ih =>
    rw [ofEach?] at h
    obtain ⟨schema, hschema, rest, hrest, rfl⟩ :
        ∃ schema, ofJson? e.2 = some schema ∧ ∃ rest, ofEach? schemas = some rest ∧
          Dict.insert rest e.1 schema = properties := by
      simpa [Option.bind_eq_some_iff] using h
    cases ih hrest with
    | object hsorted hentries =>
      -- The first member is stored last, so of two with one name it is the one that counts.
      refine .object (hsorted.insert _ _) fun key => ?_
      rw [Dict.get?_cons, Dict.get?_insert]
      split
      · exact .some hschema
      · exact hentries key

/-- A keyword whose value holds no schemas sets its own field. -/
theorem adds_of_addMember? {R : Json → Schema → Prop} {s s' : Schema} {key : String} {v : Json}
    (hproperties : key ≠ "properties") (hitems : key ≠ "items") (h : addMember? s key v = some s') :
    Adds R s v key s' := by
  -- The keywords in the order in which they are tried.
  unfold addMember? at h
  by_cases htype : key = "type"
  · subst htype
    rw [if_pos rfl] at h
    obtain ⟨types, htypes, rfl⟩ := Option.map_eq_some_iff.mp h
    exact .types (.value (typesOf?_eq_some_iff.mp htypes))
  rw [if_neg htype] at h
  by_cases hrequired : key = "required"
  · subst hrequired
    rw [if_pos rfl] at h
    obtain ⟨required, hrequired, rfl⟩ := Option.map_eq_some_iff.mp h
    exact .required (.value (Json.texts?_eq_some_iff.mp hrequired))
  rw [if_neg hrequired] at h
  by_cases henum : key = "enum"
  · subst henum
    rw [if_pos rfl] at h
    obtain ⟨values, hvalues, rfl⟩ := Option.map_eq_some_iff.mp h
    exact .enumValues (.value (Json.asArray?_eq_some_iff.mp hvalues))
  rw [if_neg henum] at h
  by_cases hdefault : key = "default"
  · subst hdefault
    rw [if_pos rfl] at h
    cases h
    exact .defaultValue (Json.notNull?_eq_iff.mp rfl)
  rw [if_neg hdefault] at h
  by_cases hexample : key = "example"
  · subst hexample
    rw [if_pos rfl] at h
    cases h
    exact .exampleValue (Json.notNull?_eq_iff.mp rfl)
  rw [if_neg hexample] at h
  by_cases htitle : key = "title"
  · subst htitle
    rw [if_pos rfl] at h
    obtain ⟨title, htitle, rfl⟩ := Option.map_eq_some_iff.mp h
    exact .title (optionalText?_eq_some_iff.mp htitle)
  rw [if_neg htitle] at h
  by_cases hdescription : key = "description"
  · subst hdescription
    rw [if_pos rfl] at h
    obtain ⟨description, hdescription, rfl⟩ := Option.map_eq_some_iff.mp h
    exact .description (optionalText?_eq_some_iff.mp hdescription)
  rw [if_neg hdescription] at h
  by_cases hformat : key = "format"
  · subst hformat
    rw [if_pos rfl] at h
    obtain ⟨format, hformat, rfl⟩ := Option.map_eq_some_iff.mp h
    exact .format (optionalText?_eq_some_iff.mp hformat)
  rw [if_neg hformat] at h
  by_cases hadditional : key = "additionalProperties"
  · subst hadditional
    rw [if_pos rfl] at h
    cases h
    exact .additional (Json.notNull?_eq_iff.mp rfl)
  rw [if_neg hadditional] at h
  by_cases hnullable : key = "nullable"
  · subst hnullable
    rw [if_pos rfl] at h
    obtain ⟨nullable, hnullable, rfl⟩ := Option.map_eq_some_iff.mp h
    exact .nullable (.value (Json.asBool?_eq_some_iff.mp hnullable))
  rw [if_neg hnullable] at h
  cases h
  exact .extension (by simp [keywords, *])

/-- Reading a member adds it, where the schemas inside of it are the ones that are read there. -/
theorem adds_of_readMember? {s s' : Schema} {key : String} {v : Json}
    (h : readMember? s key v = some s') : Adds (ofJson? · = some ·) s v key s' := by
  unfold readMember? at h
  -- The two keywords with schemas inside are read here, all others by the function for plain ones.
  split at h
  next heq =>
    subst heq
    cases v with
    | object schemas =>
      obtain ⟨properties, hproperties, rfl⟩ := Option.map_eq_some_iff.mp h
      exact .properties (.value (objectOf_of_ofEach? hproperties))
    | _ => cases h
  split at h
  next heq =>
    subst heq
    split at h
    next =>
      cases h
      exact .items .null
    next v hnull =>
      obtain ⟨items, hitems, rfl⟩ := Option.map_eq_some_iff.mp h
      exact .items (.value hnull hitems)
  exact adds_of_addMember? ‹_› ‹_› h

/-- A keyword is no extension. -/
theorem ExtensionsOf.cons_keyword {rest extensions : Dict Json} {key : String}
    (h : ExtensionsOf rest extensions) (hkey : key ∈ keywords) (v : Json) :
    ExtensionsOf ((key, v) :: rest) extensions := by
  intro other
  rw [h other, Dict.get?_cons]
  by_cases heq : key = other
  · subst heq
    rw [if_pos hkey, if_pos hkey]
  · rw [if_neg heq]

/-- Any other member is an extension, under its own key. -/
theorem ExtensionsOf.cons_extension {rest extensions : Dict Json} {key : String}
    (h : ExtensionsOf rest extensions) (hkey : key ∉ keywords) (v : Json) :
    ExtensionsOf ((key, v) :: rest) (Dict.insert extensions key v) := by
  intro other
  rw [Dict.get?_insert, Dict.get?_cons, h other]
  by_cases heq : key = other
  · subst heq
    rw [if_pos rfl, if_neg hkey, if_pos rfl]
  · rw [if_neg heq, if_neg heq]

/-- The document with one more member describes the schema with the member added. -/
theorem Describes.cons {R : Json → Schema → Prop} {rest : Dict Json} {s s' : Schema} {key : String}
    {v : Json} (h : Describes R (.object rest) s) (hadds : Adds R s v key s') :
    Describes R (.object ((key, v) :: rest)) s' := by
  cases h with
  | object htypes hproperties hrequired hitems henum hdefault hexample htitle hdescription
      hformat hadditional hnullable hsorted hextensions =>
    cases hadds with
    | extension hkey =>
      -- No keyword is looked up differently.
      have hne : ∀ keyword ∈ keywords,
          Dict.get? ((key, v) :: rest) keyword = Dict.get? rest keyword := by
        intro keyword hkeyword
        have hother : key ≠ keyword := by
          rintro rfl
          exact hkey hkeyword
        rw [Dict.get?_cons, if_neg hother]
      constructor
      case hsorted => exact hsorted.insert _ _
      case hextensions => exact hextensions.cons_extension hkey v
      all_goals
        rw [hne _ (by decide)]
        assumption
    | _ =>
      -- The member is found under its keyword, and all other keywords are looked up as before.
      constructor
      case hsorted => exact hsorted
      case hextensions => exact hextensions.cons_keyword (by decide) _
      all_goals
        simp only [Dict.get?_cons, String.reduceEq, reduceIte]
        assumption

/-- The empty document describes the schema that admits everything. -/
theorem describes_nil (R : Json → Schema → Prop) : Describes R (.object []) {} := by
  constructor
  case hsorted => exact Dict.sorted_nil
  case hextensions => simp [ExtensionsOf]
  all_goals constructor

/-- The document of a schema that is read describes this schema. -/
theorem describes_of_ofMembers? {members : Dict Json} {s : Schema}
    (h : ofMembers? members = some s) : Describes (ofJson? · = some ·) (.object members) s := by
  induction members generalizing s with
  | nil =>
    rw [ofMembers?_nil] at h
    cases h
    exact describes_nil _
  | cons e rest ih =>
    rw [ofMembers?_cons] at h
    obtain ⟨s₀, hrest, hread⟩ := Option.bind_eq_some_iff.mp h
    exact (ih hrest).cons (adds_of_readMember? hread)

/-- What is read documents the schema that it is read as. -/
theorem documents_of_ofJson? {v : Json} {s : Schema} (h : ofJson? v = some s) : Documents v s := by
  induction v using subdocument_wf.induction generalizing s with
  | _ v ih =>
    cases v with
    | object members =>
      rw [ofJson?] at h
      exact .intro ((describes_of_ofMembers? h).imp fun w t hw ht => ih w hw ht)
    | _ => cases h

/-! ## Which documents are read -/

/-- Schemas are read if each of them is. -/
theorem exists_ofEach? {schemas : Dict Json} (h : ∀ e ∈ schemas, ∃ t, ofJson? e.2 = some t) :
    ∃ properties, ofEach? schemas = some properties := by
  induction schemas with
  | nil => exact ⟨[], by rw [ofEach?]⟩
  | cons e schemas ih =>
    obtain ⟨t, ht⟩ := h e List.mem_cons_self
    obtain ⟨rest, hrest⟩ := ih fun e' he' => h e' (List.mem_cons_of_mem _ he')
    exact ⟨Dict.insert rest e.1 t, by simp [ofEach?, ht, hrest]⟩

/-- Properties are read as the dictionary that the object stands for. -/
theorem ofEach?_of_objectOf {schemas : Dict Json} {properties : Dict Schema}
    (hsorted : Dict.Sorted schemas)
    (h : ObjectOf (ofJson? · = some ·) (.object schemas) properties) :
    ofEach? schemas = some properties := by
  have hread : ∀ e ∈ schemas, ∃ t, ofJson? e.2 = some t := by
    intro e he
    obtain ⟨t, -, ht⟩ := h.exists_entry ((Dict.get?_eq_some_iff hsorted).mpr he)
    exact ⟨t, ht⟩
  obtain ⟨found, hfound⟩ := exists_ofEach? hread
  rw [hfound, (objectOf_of_ofEach? hfound).unique h fun _ _ _ ht ht' =>
    Option.some.inj (ht.symm.trans ht')]

/-- A member that adds something is read, where it does not hold two schemas of one property. -/
theorem readMember?_of_adds {s s' : Schema} {key : String} {v : Json}
    (hsorted : ∀ schemas, key = "properties" → v = .object schemas → Dict.Sorted schemas)
    (h : Adds (ofJson? · = some ·) s v key s') : readMember? s key v = some s' := by
  cases h with
  | types h =>
    cases h with
    | value h => exact Option.map_eq_some_iff.mpr ⟨_, typesOf?_eq_some_iff.mpr h, rfl⟩
  | properties h =>
    cases h with
    | value h =>
      -- The document of the properties has them in order, and so the dictionary is the one that is
      -- read.
      cases v with
      | object schemas =>
        have hread := ofEach?_of_objectOf (hsorted _ rfl rfl) h
        exact Option.map_eq_some_iff.mpr ⟨_, hread, rfl⟩
      | _ => cases h
  | required h =>
    cases h with
    | value h => exact Option.map_eq_some_iff.mpr ⟨_, Json.texts?_eq_some_iff.mpr h, rfl⟩
  | items h =>
    cases h with
    | null => rfl
    | value hnull h =>
      cases v with
      | null => exact absurd rfl hnull
      | object => exact Option.map_eq_some_iff.mpr ⟨_, h, rfl⟩
      | _ => cases h
  | enumValues h =>
    cases h with
    | value h => exact Option.map_eq_some_iff.mpr ⟨_, Json.asArray?_eq_some_iff.mpr h, rfl⟩
  | defaultValue h =>
    rw [← Json.notNull?_eq_iff.mpr h]
    rfl
  | exampleValue h =>
    rw [← Json.notNull?_eq_iff.mpr h]
    rfl
  | title h => exact Option.map_eq_some_iff.mpr ⟨_, optionalText?_eq_some_iff.mpr h, rfl⟩
  | description h => exact Option.map_eq_some_iff.mpr ⟨_, optionalText?_eq_some_iff.mpr h, rfl⟩
  | format h => exact Option.map_eq_some_iff.mpr ⟨_, optionalText?_eq_some_iff.mpr h, rfl⟩
  | additional h =>
    rw [← Json.notNull?_eq_iff.mpr h]
    rfl
  | nullable h =>
    cases h with
    | value h => exact Option.map_eq_some_iff.mpr ⟨_, Json.asBool?_eq_some_iff.mpr h, rfl⟩
  | extension hkey =>
    -- A key that is no keyword fails all twelve checks.
    simp only [mem_keywords_iff, not_or] at hkey
    unfold readMember? addMember?
    iterate 12 rw [if_neg (by simp only [hkey, not_false_eq_true])]

/-- Each member of a document that describes some schema adds something to any schema. -/
theorem Describes.exists_adds {R : Json → Schema → Prop} {members : Dict Json} {s : Schema}
    (h : Describes R (.object members) s) {key : String} {v : Json}
    (hget : Dict.get? members key = some v) (s₀ : Schema) : ∃ s', Adds R s₀ v key s' := by
  cases h with
  | object htypes hproperties hrequired hitems henum hdefault hexample htitle hdescription
      hformat hadditional hnullable =>
    by_cases hkey : key ∈ keywords
    · rw [mem_keywords_iff] at hkey
      -- One case for each keyword, in the order of the list.
      rcases hkey with rfl | rfl | rfl | rfl | rfl | rfl | rfl | rfl | rfl | rfl | rfl | rfl
      · exact ⟨_, .types (hget ▸ htypes)⟩
      · exact ⟨_, .properties (hget ▸ hproperties)⟩
      · exact ⟨_, .required (hget ▸ hrequired)⟩
      · exact ⟨_, .items (hget ▸ hitems)⟩
      · exact ⟨_, .enumValues (hget ▸ henum)⟩
      · exact ⟨_, .defaultValue (hget ▸ hdefault)⟩
      · exact ⟨_, .exampleValue (hget ▸ hexample)⟩
      · exact ⟨_, .title (hget ▸ htitle)⟩
      · exact ⟨_, .description (hget ▸ hdescription)⟩
      · exact ⟨_, .format (hget ▸ hformat)⟩
      · exact ⟨_, .additional (hget ▸ hadditional)⟩
      · exact ⟨_, .nullable (hget ▸ hnullable)⟩
    · exact ⟨_, .extension hkey⟩

/-- Members are read if each of them can be added to any schema. -/
theorem exists_ofMembers? {members : Dict Json}
    (h : ∀ e ∈ members, ∀ s, ∃ s', readMember? s e.1 e.2 = some s') :
    ∃ s, ofMembers? members = some s := by
  induction members with
  | nil => exact ⟨{}, ofMembers?_nil⟩
  | cons e rest ih =>
    obtain ⟨s, hrest⟩ := ih fun e' he' => h e' (List.mem_cons_of_mem _ he')
    obtain ⟨s', hread⟩ := h e List.mem_cons_self s
    exact ⟨s', by rw [ofMembers?_cons, hrest, Option.bind_some, hread]⟩

/-- No object that is read as schemas has two members with one key: not the document itself, not its
properties, and not the documents inside of it. -/
inductive Unambiguous : Json → Prop
  | intro {v : Json} (hmembers : ∀ members, v = .object members → Dict.Sorted members)
      (hproperties : ∀ members schemas, v = .object members →
        Dict.get? members "properties" = some (.object schemas) → Dict.Sorted schemas)
      (hinner : ∀ w, Subdocument w v → Unambiguous w) : Unambiguous v

/-- A schema that an unambiguous document describes is read from it. -/
theorem ofJson?_of_documents {v : Json} {s : Schema} (hv : Unambiguous v) (h : Documents v s) :
    ofJson? v = some s := by
  induction v using subdocument_wf.induction generalizing s with
  | _ v ih =>
    obtain ⟨hmembers, hproperties, hinner⟩ := hv
    have hread : Describes (ofJson? · = some ·) v s := by
      cases h with
      | intro h => exact h.imp fun w t hw ht => ih w hw (hinner w hw) ht
    -- What the document is read as is settled, so it only has to be read at all.
    suffices hsome : ∃ s', ofJson? v = some s' by
      obtain ⟨s', hs'⟩ := hsome
      rw [hs', (documents_of_ofJson? hs').unique h]
    cases v with
    | object members =>
      rw [ofJson?]
      have hsorted := hmembers members rfl
      refine exists_ofMembers? fun e he s₀ => ?_
      have hget := (Dict.get?_eq_some_iff hsorted).mpr he
      obtain ⟨s', hadds⟩ := hread.exists_adds hget s₀
      refine ⟨s', readMember?_of_adds (fun schemas hkey hschemas => ?_) hadds⟩
      exact hproperties members schemas rfl (hkey ▸ hschemas ▸ hget)
    | _ => cases hread

/-- A value is read as a schema exactly if it is a document of the schema. -/
theorem ofJson?_eq_some_iff {v : Json} {s : Schema} (hv : Unambiguous v) :
    ofJson? v = some s ↔ Documents v s :=
  ⟨documents_of_ofJson?, ofJson?_of_documents hv⟩

end ApiCommand.Schema
