import ApiCommand.Proofs.Catalog.Request
import ApiCommand.Proofs.Text.Percent
import ApiCommand.Proofs.Text.Split
import Mathlib.Data.List.Nodup

/-!
# Path templates

The path of an operation is a template of texts and placeholders. Values are put in one after
another, each into what the ones before have left. Since there are no braces in an encoded value, no
value makes or breaks a placeholder, so it is the same as putting in all values at once
(`filledPath_eq_join`). Neither the order of the parameters nor delimiters in the values change the
shape of the path (`path_of_request`).
-/

namespace ApiCommand

/-- There is neither an opening nor a closing brace in the text. -/
def Text.BraceFree (s : String) : Prop := '{' ∉ s.toList ∧ '}' ∉ s.toList

/-- Whether a text has braces is decided by looking for them. -/
instance : DecidablePred Text.BraceFree := fun _ => inferInstanceAs (Decidable (_ ∧ _))

theorem Text.braceFree_encode (s : String) : Text.BraceFree (Text.Percent.encode s) :=
  ⟨Text.Percent.notMem_encode s (by decide), Text.Percent.notMem_encode s (by decide)⟩

/-- A part of a path template. -/
inductive PathPart where
  /-- Text that is kept. -/
  | text (s : String)
  /-- The place for the value with a name. -/
  | placeholder (name : String)
  deriving DecidableEq

namespace PathPart

/-- The characters that the part is written with. -/
def chars (p : PathPart) : List Char :=
  match p with
  | text s => s.toList
  | placeholder name => '{' :: (name.toList ++ ['}'])

theorem chars_placeholder (name : String) :
    (placeholder name).chars = '{' :: (name.toList ++ ['}']) := rfl

/-- The path that is made of parts. -/
def join (parts : List PathPart) : String := String.ofList (parts.flatMap chars)

/-- There are no braces in the part but those around the name of a placeholder. -/
def BraceFree (p : PathPart) : Prop :=
  match p with
  | text s => Text.BraceFree s
  | placeholder name => Text.BraceFree name

/-- For each part this is a question about one text. -/
instance : DecidablePred BraceFree := fun p => by
  unfold BraceFree
  split <;> infer_instance

/-- The part with the text for its name in place of a placeholder, if there is one. -/
def fill (image : String → Option String) (p : PathPart) : PathPart :=
  match p with
  | text s => text s
  | placeholder name => (image name).elim (placeholder name) text

variable {parts : List PathPart} {image : String → Option String}

theorem fill_none (p : PathPart) : p.fill (fun _ => none) = p := by
  cases p <;> rfl

/-- Filling brings no braces if the texts bring none. -/
theorem braceFree_fill (himage : ∀ name s, image name = some s → Text.BraceFree s) {p : PathPart}
    (hp : p.BraceFree) : (p.fill image).BraceFree := by
  cases p with
  | text s => exact hp
  | placeholder name =>
    rw [fill]
    cases hname : image name with
    | none => exact hp
    | some s => exact himage name s hname

/-- Texts for some names that are put in first count before those that are put in later. -/
theorem fill_fill (first : String → Option String) (p : PathPart) :
    (p.fill first).fill image = p.fill fun name => (first name).or (image name) := by
  cases p with
  | text s => rfl
  | placeholder name => cases hname : first name <;> simp [fill, hname]

/-- The placeholders that are left are those without a text. -/
theorem placeholder_mem_map_fill_iff {name : String} :
    placeholder name ∈ parts.map (fill image) ↔ placeholder name ∈ parts ∧ image name = none := by
  rw [List.mem_map]
  constructor
  · rintro ⟨p, hp, hfill⟩
    cases p with
    | text s => cases hfill
    | placeholder other =>
      rw [fill] at hfill
      cases hother : image other with
      | none =>
        rw [hother] at hfill
        cases hfill
        exact ⟨hp, hother⟩
      | some s =>
        rw [hother] at hfill
        cases hfill
  · rintro ⟨hp, hnone⟩
    exact ⟨_, hp, by rw [fill, hnone]; rfl⟩

/-! ## Placeholders -/

/-- Of two names without braces that are followed by a closing brace, none is the start of the
other. -/
theorem eq_of_append_brace {name other : String} {rest rest' : List Char} (h : '}' ∉ name.toList)
    (h' : '}' ∉ other.toList) (heq : name.toList ++ '}' :: rest = other.toList ++ '}' :: rest') :
    name = other := by
  have hcut := congrArg (Text.cut '}') heq
  rw [Text.cut_append h, Text.cut_append h'] at hcut
  exact String.toList_inj.mp (congrArg Prod.fst (Option.some.inj hcut))

/-- A placeholder that occurs in a path is one of the parts. -/
theorem placeholder_mem_of_infix {name : String} (hname : Text.BraceFree name)
    (hparts : ∀ p ∈ parts, p.BraceFree)
    (h : (placeholder name).chars <:+: parts.flatMap chars) : placeholder name ∈ parts := by
  obtain ⟨before, rest, heq⟩ := h
  rw [chars_placeholder, List.append_assoc, List.cons_append, List.append_assoc,
    List.singleton_append] at heq
  -- On the parts: the placeholder starts with the first of them or somewhere behind it.
  induction parts generalizing before with
  | nil => simp at heq
  | cons p parts ih =>
    obtain ⟨hp, hrest⟩ := List.forall_mem_cons.mp hparts
    -- A stretch without an opening brace ends before the placeholder starts.
    have hskip : ∀ cs, '{' ∉ cs → ∀ pre,
        pre ++ '{' :: (name.toList ++ '}' :: rest) = cs ++ parts.flatMap chars →
        placeholder name ∈ p :: parts := by
      intro cs hcs pre hpre
      rcases List.append_eq_append_iff.mp hpre with ⟨t, rfl, ht⟩ | ⟨t, rfl, ht⟩
      · cases t with
        | nil => exact List.mem_cons_of_mem _ (ih hrest [] ht)
        | cons c t =>
          rw [List.cons_append, List.cons.injEq] at ht
          exact absurd (by simp [← ht.1]) hcs
      · exact List.mem_cons_of_mem _ (ih hrest t ht.symm)
    rw [List.flatMap_cons] at heq
    cases p with
    | text s => exact hskip s.toList hp.1 before heq
    | placeholder other =>
      rw [chars_placeholder, List.cons_append, List.append_assoc, List.singleton_append] at heq
      cases before with
      | nil =>
        rw [List.nil_append, List.cons.injEq] at heq
        rw [eq_of_append_brace hname.2 hp.2 heq.2]
        exact List.mem_cons_self
      | cons c before =>
        rw [List.cons_append, List.cons.injEq] at heq
        refine hskip (other.toList ++ ['}']) (by simpa using hp.1) before ?_
        rw [heq.2, List.append_assoc, List.singleton_append]

/-- Replacing a placeholder in a path puts the text in place of each part that is this
placeholder. -/
theorem replace_flatMap_chars {name s : String} (hname : Text.BraceFree name)
    (hparts : ∀ p ∈ parts, p.BraceFree) :
    Text.replace (placeholder name).chars s.toList (parts.flatMap chars) =
      (parts.map (fill (Dict.get? [(name, s)]))).flatMap chars := by
  induction parts with
  | nil => rfl
  | cons p parts ih =>
    obtain ⟨hp, hrest⟩ := List.forall_mem_cons.mp hparts
    rw [List.flatMap_cons, List.map_cons, List.flatMap_cons, ← ih hrest]
    cases p with
    | text t => exact Text.replace_append_of_notMem hp.1 _
    | placeholder other =>
      -- Another placeholder does not start like this one, since both names end at the first brace.
      by_cases heq : name = other
      · subst heq
        rw [Text.replace_append_of_ne_nil (by simp [chars])]
        simp [fill, chars]
      · have hprefix : ¬(placeholder name).chars <+:
            '{' :: (other.toList ++ ['}'] ++ parts.flatMap chars) := by
          rintro ⟨t, ht⟩
          rw [chars_placeholder, List.cons_append, List.cons.injEq] at ht
          exact heq (eq_of_append_brace hname.2 hp.2 (by simpa using ht.2))
        have hfill : (placeholder other).fill (Dict.get? [(name, s)]) = placeholder other := by
          simp [fill, heq]
        rw [hfill, chars_placeholder other, List.cons_append,
          Text.replace_cons_of_not_isPrefix hprefix, chars_placeholder name,
          Text.replace_append_of_notMem (by simpa using hp.1), List.cons_append]

end PathPart

namespace Operation

variable {op : Operation} {inputs : Inputs} {parts : List PathPart}

/-- Putting in values one after another is putting them in at once, where the first value for a name
counts. -/
theorem foldl_fillPlaceholder (hparts : ∀ p ∈ parts, p.BraceFree) {values : List (String × Json)}
    (hvalues : ∀ e ∈ values, Text.BraceFree e.1) :
    values.foldl (fun path e => fillPlaceholder path e.1 e.2) (parts.flatMap PathPart.chars) =
      (parts.map (PathPart.fill fun name =>
        (Dict.get? values name).map fun v => Text.Percent.encode v.plainText)).flatMap
          PathPart.chars := by
  induction values generalizing parts with
  | nil =>
    simp only [List.foldl_nil, Dict.get?_nil, Option.map_none, funext PathPart.fill_none,
      List.map_id']
  | cons e values ih =>
    obtain ⟨hname, hrest⟩ := List.forall_mem_cons.mp hvalues
    have hsingle : ∀ name s, Dict.get? [(e.1, Text.Percent.encode e.2.plainText)] name = some s →
        Text.BraceFree s := by
      intro name s hs
      rw [Dict.get?_cons] at hs
      split at hs
      next => exact Option.some.inj hs ▸ Text.braceFree_encode _
      next => cases hs
    -- No text brings braces in, so the other values are put into a path of parts again.
    have hfilled : ∀ p ∈ parts.map (PathPart.fill (Dict.get?
        [(e.1, Text.Percent.encode e.2.plainText)])), p.BraceFree := by
      intro p hp
      obtain ⟨q, hq, rfl⟩ := List.mem_map.mp hp
      exact PathPart.braceFree_fill hsingle (hparts q hq)
    rw [List.foldl_cons, fillPlaceholder, ← PathPart.chars_placeholder,
      PathPart.replace_flatMap_chars hname hparts, ih hfilled hrest, List.map_map]
    congr 2
    funext p
    rw [Function.comp_apply, PathPart.fill_fill]
    congr 1
    funext name
    rw [Dict.get?_cons, Dict.get?_cons]
    split <;> simp

/-- The text for a placeholder: the encoded value of the path parameter with its name. -/
def pathText? (op : Operation) (inputs : Inputs) (name : String) : Option String :=
  (Dict.get? (op.given inputs .path) name).map fun v => Text.Percent.encode v.plainText

/-- The path of a request consists of the parts of the template with the texts in place of those
placeholders that have one. -/
theorem filledPath_eq_join (hpath : op.path = PathPart.join parts)
    (hparts : ∀ p ∈ parts, p.BraceFree)
    (hnames : ∀ b ∈ op.bindings, b.location = .path → Text.BraceFree b.wireName) :
    op.filledPath inputs = PathPart.join (parts.map (PathPart.fill (op.pathText? inputs))) := by
  have hvalues : ∀ e ∈ op.given inputs .path, Text.BraceFree e.1 := by
    rintro ⟨name, v⟩ he
    obtain ⟨b, hb, hlocation, rfl, -⟩ := mem_given_iff.mp he
    exact hnames b hb hlocation
  rw [filledPath, hpath, PathPart.join, String.toList_ofList, foldl_fillPlaceholder hparts hvalues]
  rfl

/-! ## Values of placeholders -/

/-- Path parameters are told apart by their wire names. -/
def PathNamesDiffer (op : Operation) : Prop :=
  ∀ b ∈ op.bindings, ∀ b' ∈ op.bindings, b.location = .path → b'.location = .path →
    b.wireName = b'.wireName → b = b'

/-- The text for a placeholder is that of the one path parameter with its name. -/
theorem pathText?_eq_some_iff (hdiffer : op.PathNamesDiffer) {name s : String} :
    op.pathText? inputs name = some s ↔
      ∃ b ∈ op.bindings, b.location = .path ∧ b.wireName = name ∧
        ∃ v, valueOf inputs b = some v ∧ Text.Percent.encode v.plainText = s := by
  -- All values that are given for the name are that of one parameter.
  have hget : ∀ v, Dict.get? (op.given inputs .path) name = some v ↔
      (name, v) ∈ op.given inputs .path := by
    intro v
    refine ⟨Dict.mem_of_get?_eq_some, fun hmem => ?_⟩
    obtain ⟨b, hb, hlocation, hname, hv⟩ := mem_given_iff.mp hmem
    refine Dict.get?_eq_of_forall_mem_iff fun v' => ?_
    rw [mem_given_iff, ← hv]
    constructor
    · rintro ⟨b', hb', hlocation', hname', hv'⟩
      rw [hdiffer b hb b' hb' hlocation hlocation' (hname.trans hname'.symm), hv']
    · intro hv'
      exact ⟨b, hb, hlocation, hname, hv'⟩
  simp only [pathText?, Option.map_eq_some_iff, hget, mem_given_iff]
  constructor
  · rintro ⟨v, ⟨b, hb, hlocation, hname, hv⟩, hs⟩
    exact ⟨b, hb, hlocation, hname, v, hv, hs⟩
  · rintro ⟨b, hb, hlocation, hname, v, hv, hs⟩
    exact ⟨v, ⟨b, hb, hlocation, hname, hv⟩, hs⟩

/-- The texts for placeholders depend on which parameters there are and not on their order. -/
theorem pathText?_congr {other : Operation} (hdiffer : op.PathNamesDiffer)
    (hdiffer' : other.PathNamesDiffer) (h : ∀ b, b ∈ other.bindings ↔ b ∈ op.bindings) :
    other.pathText? inputs = op.pathText? inputs := by
  funext name
  apply Option.ext
  intro s
  rw [pathText?_eq_some_iff hdiffer, pathText?_eq_some_iff hdiffer']
  simp only [h]

/-- What stands behind the path in an address. -/
def querySuffix (op : Operation) (inputs : Inputs) : String :=
  if (op.query inputs).isEmpty then ""
  else "?" ++ String.intercalate "&" ((op.query inputs).map queryPair)

theorem url_eq_append (op : Operation) (inputs : Inputs) :
    op.url inputs = op.baseUrl ++ op.filledPath inputs ++ op.querySuffix inputs := rfl

section OfSpec

variable {mark baseUrl : String} {shared : Option Schema} {spec : OperationSpec}

/-- The wire names of the path parameters of a specification. -/
def pathNames (spec : OperationSpec) : List String :=
  (spec.parameters.filter fun p => p.location == .path).map ParameterSpec.name

theorem mem_pathNames_iff {name : String} :
    name ∈ pathNames spec ↔ ∃ p ∈ spec.parameters, p.location = .path ∧ p.name = name := by
  simp [pathNames, and_assoc]

/-- If no wire name is used twice in the path, then the operation tells its path parameters apart.
-/
theorem pathNamesDiffer_ofSpec (h : (pathNames spec).Nodup) :
    (ofSpec mark baseUrl shared spec).PathNamesDiffer := by
  intro b hb b' hb' hlocation hlocation' hname
  obtain ⟨p, hp, rfl⟩ := List.mem_map.mp hb
  obtain ⟨q, hq, rfl⟩ := List.mem_map.mp hb'
  have hpath : ∀ {p : ParameterSpec}, p ∈ spec.parameters → p.location = .path →
      p ∈ spec.parameters.filter fun p => p.location == .path :=
    fun hp hlocation => List.mem_filter.mpr ⟨hp, by simpa using hlocation⟩
  rw [List.inj_on_of_nodup_map h (hpath hp hlocation) (hpath hq hlocation') hname]

/-- The text for a path parameter is its encoded value, and other placeholders have none. -/
theorem pathText?_ofSpec {inputs : Inputs} {request : Request} (hnodup : (pathNames spec).Nodup)
    (h : (ofSpec mark baseUrl shared spec).request inputs = .ok request) :
    (∀ p ∈ spec.parameters, p.location = .path →
        ∃ v, Dict.get? inputs.parameters (p.binding mark).externalName = some v ∧
          (ofSpec mark baseUrl shared spec).pathText? inputs p.name =
            some (Text.Percent.encode v.plainText)) ∧
      ∀ name, name ∉ pathNames spec →
        (ofSpec mark baseUrl shared spec).pathText? inputs name = none := by
  have hdiffer : (ofSpec mark baseUrl shared spec).PathNamesDiffer := pathNamesDiffer_ofSpec hnodup
  obtain ⟨hmissing, -⟩ := request_eq_ok_iff.mp h
  constructor
  · intro p hp hlocation
    have hbinding : p.binding mark ∈ (ofSpec mark baseUrl shared spec).bindings :=
      List.mem_map_of_mem hp
    -- Building the request has checked that every placeholder has a value.
    obtain ⟨v, hv⟩ := missingPath?_eq_none_iff.mp hmissing _ hbinding hlocation
    refine ⟨v, ?_, (pathText?_eq_some_iff hdiffer).mpr ⟨_, hbinding, hlocation, rfl, v, hv, rfl⟩⟩
    rw [← hv, valueOf, ParameterSpec.binding, hlocation]
    rfl
  · intro name hname
    -- A name with a text is that of a binding, and so that of a parameter.
    rw [Option.eq_none_iff_forall_ne_some]
    intro s hs
    obtain ⟨b, hb, hlocation, rfl, -⟩ := (pathText?_eq_some_iff hdiffer).mp hs
    obtain ⟨p, hp, rfl⟩ := List.mem_map.mp hb
    exact hname (mem_pathNames_iff.mpr ⟨p, hp, hlocation, rfl⟩)

/-- With the parameters in any order, the same texts are put into the path. -/
theorem exists_request_of_perm {parts : List PathPart} {inputs : Inputs} {request : Request}
    (hpath : spec.path = PathPart.join parts) (hparts : ∀ p ∈ parts, p.BraceFree)
    (hnames : ∀ name ∈ pathNames spec, Text.BraceFree name) (hnodup : (pathNames spec).Nodup)
    (h : (ofSpec mark baseUrl shared spec).request inputs = .ok request)
    {parameters : List ParameterSpec} (hperm : parameters.Perm spec.parameters) :
    ∃ request', (ofSpec mark baseUrl shared { spec with parameters }).request inputs =
        .ok request' ∧
      request'.url = dropSlashes baseUrl ++
          PathPart.join
            (parts.map (PathPart.fill ((ofSpec mark baseUrl shared spec).pathText? inputs))) ++
        (ofSpec mark baseUrl shared { spec with parameters }).querySuffix inputs := by
  -- The order of parameters does not change which bindings there are.
  have hbindings : ∀ b, b ∈ (ofSpec mark baseUrl shared { spec with parameters }).bindings ↔
      b ∈ (ofSpec mark baseUrl shared spec).bindings :=
    fun _ => (hperm.map (ParameterSpec.binding mark)).mem_iff
  have hpermNames : (pathNames { spec with parameters }).Perm (pathNames spec) :=
    (hperm.filter _).map _
  obtain ⟨hmissing, -⟩ := request_eq_ok_iff.mp h
  refine ⟨_, request_eq_ok_iff.mpr ⟨?_, rfl⟩, ?_⟩
  · -- A parameter of the path that has a value has one in any order.
    rw [missingPath?_eq_none_iff] at hmissing ⊢
    exact fun b hb => hmissing b ((hbindings b).mp hb)
  · -- The path is filled by name, and names stand for one binding each.
    have hbraceFree : ∀ b ∈ (ofSpec mark baseUrl shared { spec with parameters }).bindings,
        b.location = .path → Text.BraceFree b.wireName := by
      intro b hb hlocation
      obtain ⟨p, hp, rfl⟩ := List.mem_map.mp hb
      exact hnames _ (mem_pathNames_iff.mpr ⟨p, hperm.mem_iff.mp hp, hlocation, rfl⟩)
    rw [url_eq_append, filledPath_eq_join hpath hparts hbraceFree,
      pathText?_congr (pathNamesDiffer_ofSpec hnodup)
        (pathNamesDiffer_ofSpec (hpermNames.nodup_iff.mpr hnodup)) hbindings]
    rfl

/-- The path of a request is the template with the encoded texts of the values in place of all
placeholders of path parameters at once. The texts are free of delimiters, and a placeholder that is
in the path is one of the template that is left alone. If the parameters are declared in another
order, the same texts are put into the path. -/
theorem path_of_request {parts : List PathPart} {inputs : Inputs} {request : Request}
    (hpath : spec.path = PathPart.join parts) (hparts : ∀ p ∈ parts, p.BraceFree)
    (hnames : ∀ name ∈ pathNames spec, Text.BraceFree name) (hnodup : (pathNames spec).Nodup)
    (h : (ofSpec mark baseUrl shared spec).request inputs = .ok request) :
    ∃ image : String → Option String,
      (∀ p ∈ spec.parameters, p.location = .path →
        ∃ v, Dict.get? inputs.parameters (p.binding mark).externalName = some v ∧
          image p.name = some (Text.Percent.encode v.plainText)) ∧
      (∀ name, name ∉ pathNames spec → image name = none) ∧
      request.url = dropSlashes baseUrl ++ PathPart.join (parts.map (PathPart.fill image)) ++
        (ofSpec mark baseUrl shared spec).querySuffix inputs ∧
      (∀ parameters, parameters.Perm spec.parameters →
        ∃ request', (ofSpec mark baseUrl shared { spec with parameters }).request inputs =
            .ok request' ∧
          request'.url = dropSlashes baseUrl ++ PathPart.join (parts.map (PathPart.fill image)) ++
            (ofSpec mark baseUrl shared { spec with parameters }).querySuffix inputs) ∧
      (∀ name s, image name = some s →
        Text.Percent.IsEscaped s.toList ∧ ∀ c ∈ ['/', '?', '#', '{', '}'], c ∉ s.toList) ∧
      ∀ name, Text.BraceFree name →
        ('{' :: (name.toList ++ ['}'])) <:+:
            (PathPart.join (parts.map (PathPart.fill image))).toList →
          .placeholder name ∈ parts ∧ image name = none := by
  obtain ⟨hdeclared, hother⟩ := pathText?_ofSpec hnodup h
  obtain ⟨request', hrequest', hurl⟩ :=
    exists_request_of_perm hpath hparts hnames hnodup h (List.Perm.refl _)
  cases h.symm.trans hrequest'
  have hencoded : ∀ name s, (ofSpec mark baseUrl shared spec).pathText? inputs name = some s →
      ∃ text, Text.Percent.encode text = s := by
    intro name s hs
    obtain ⟨v, -, hv⟩ := Option.map_eq_some_iff.mp hs
    exact ⟨_, hv⟩
  refine ⟨(ofSpec mark baseUrl shared spec).pathText? inputs, hdeclared, hother, hurl,
    fun _ => exists_request_of_perm hpath hparts hnames hnodup h, ?_, ?_⟩
  · intro name s hs
    obtain ⟨text, rfl⟩ := hencoded name s hs
    refine ⟨Text.Percent.isEscaped_encode text, fun c hc => Text.Percent.notMem_encode text ?_⟩
    simp only [List.mem_cons, List.not_mem_nil, or_false] at hc
    rcases hc with rfl | rfl | rfl | rfl | rfl <;> decide
  · intro name hname hinfix
    -- The path consists of parts again, so the placeholder is one of those that were not filled.
    rw [PathPart.join, String.toList_ofList] at hinfix
    have hfilled : ∀ p ∈ parts.map (PathPart.fill
        ((ofSpec mark baseUrl shared spec).pathText? inputs)), p.BraceFree := by
      intro p hp
      obtain ⟨q, hq, rfl⟩ := List.mem_map.mp hp
      refine PathPart.braceFree_fill (fun name s hs => ?_) (hparts q hq)
      obtain ⟨text, rfl⟩ := hencoded name s hs
      exact Text.braceFree_encode text
    have hmem := PathPart.placeholder_mem_of_infix hname hfilled hinfix
    exact PathPart.placeholder_mem_map_fill_iff.mp hmem

end OfSpec

/-- An operation with a placeholder that occurs twice and one that no parameter stands for. -/
def getSnapshot : OperationSpec :=
  { id := "getSnapshot", method := "get", path := "/zones/{zone}/{kind}s/{id}{zone}"
    parameters := [
      { name := "zone", location := .path
        schema := { types := ["string"], extensions := [("x-relay-name", .string "region")] } },
      { name := "id", location := .path, schema := .integer },
      { name := "full", location := .query, schema := .boolean }] }

/-- The parts of its path. -/
def snapshotPath : List PathPart :=
  [.text "/zones/", .placeholder "zone", .text "/", .placeholder "kind", .text "s/",
    .placeholder "id", .placeholder "zone"]

/-- Inputs of which one is written like a placeholder between delimiters. -/
def snapshotInputs : Inputs :=
  { parameters := [("full", .bool true), ("id", .number (.int 7)), ("region", .string "a/{id}?")] }

/-- The value that looks like a placeholder is put in as it is, whatever parameter comes first. -/
theorem path_of_request_getSnapshot :
    ∃ request image,
      (ofSpec "x-relay" "https://api/" none getSnapshot).request snapshotInputs = .ok request ∧
        request.url =
          "https://api/zones/a%2F%7Bid%7D%3F/{kind}s/7a%2F%7Bid%7D%3F?full=true" ∧
        image "zone" = some "a%2F%7Bid%7D%3F" ∧ image "kind" = none ∧
        ∃ request', (ofSpec "x-relay" "https://api/" none
            { getSnapshot with parameters := getSnapshot.parameters.reverse }).request
              snapshotInputs = .ok request' ∧
          request'.url = "https://api" ++ PathPart.join (snapshotPath.map (PathPart.fill image)) ++
            "?full=true" := by
  have hrun : (match (ofSpec "x-relay" "https://api/" none getSnapshot).request snapshotInputs with
      | .error _ => false
      | .ok request => request.url ==
          "https://api/zones/a%2F%7Bid%7D%3F/{kind}s/7a%2F%7Bid%7D%3F?full=true") = true := by
    decide +kernel
  split at hrun
  next => cases hrun
  next request hrequest =>
    have hpath : getSnapshot.path = PathPart.join snapshotPath := by decide +kernel
    obtain ⟨image, hdeclared, hother, -, hperm, -⟩ :=
      path_of_request hpath (by decide +kernel) (by decide +kernel) (by decide +kernel) hrequest
    obtain ⟨v, hv, hzone⟩ := hdeclared _ List.mem_cons_self rfl
    cases hv
    obtain ⟨request', hrequest', hurl⟩ := hperm _ (List.reverse_perm _)
    have hbase : dropSlashes "https://api/" = "https://api" := by decide +kernel
    have hsuffix : (ofSpec "x-relay" "https://api/" none
        { getSnapshot with parameters := getSnapshot.parameters.reverse }).querySuffix
          snapshotInputs = "?full=true" := by decide +kernel
    rw [hbase, hsuffix] at hurl
    exact ⟨request, image, hrequest, by simpa using hrun, hzone.trans (by decide +kernel),
      hother _ (by decide +kernel), request', hrequest', hurl⟩

end Operation

end ApiCommand
