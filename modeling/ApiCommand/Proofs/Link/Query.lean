import ApiCommand.Proofs.Catalog.Request
import ApiCommand.Proofs.Link.Expression
import ApiCommand.Proofs.Text.Percent

/-!
# Queries read back

The query of a request stands behind the only question mark of its address, since neither values in
the path nor the query itself bring in another one. Cut at `&` and `=` and decoded, it gives the
names and texts of the values that it was made of, in the order of the bindings
(`query_of_request`). So an expression for a query parameter finds the first value with its name.
-/

namespace ApiCommand

/-- Reads a pair of a query: what stands in front of the first `=` and behind it, decoded. -/
def readPair? (piece : String) : Option (String × String) := do
  let (name, text) ← Text.cutText '=' piece
  let name ← Text.Percent.decode? name
  let text ← Text.Percent.decode? text
  some (name, text)

namespace Operation

variable {op : Operation} {inputs : Inputs} {request : Request} {c : Char}

/-- The names and texts that the query parameters with a value stand for, binding by binding. An
array stands for one pair for each of its items. -/
def queryEntries (op : Operation) (inputs : Inputs) : List (String × String) :=
  op.bindings.flatMap fun b =>
    if b.location = .query then
      match Dict.get? inputs.parameters b.externalName with
      | none => []
      | some (.array items) => items.map fun item => (b.wireName, item.plainText)
      | some v => [(b.wireName, v.plainText)]
    else []

/-- The query has the names and texts of the inputs, binding by binding. -/
theorem query_eq_queryEntries (op : Operation) (inputs : Inputs) :
    op.query inputs = op.queryEntries inputs := by
  unfold query given queryEntries
  induction op.bindings with
  | nil => rfl
  | cons b rest ih =>
    rw [List.flatMap_cons, ← ih, List.filter_cons]
    by_cases hquery : b.location = .query
    · have hat : valueOf inputs b = Dict.get? inputs.parameters b.externalName := by
        rw [valueOf, hquery]
        rfl
      rw [if_pos (by simp [hquery]), if_pos hquery, List.filterMap_cons, hat]
      cases hvalue : Dict.get? inputs.parameters b.externalName with
      | none => simp
      | some v => cases v <;> simp [queryTexts]
    · rw [if_neg (by simp [hquery]), if_neg hquery, List.nil_append]

/-! ## The path -/

/-- Values in the path bring in no characters but those of encoded texts. -/
theorem notMem_filledPath (inputs : Inputs) (hpath : c ∉ op.path.toList)
    (hc : ¬Text.Percent.IsEncoded c) : c ∉ (op.filledPath inputs).toList := by
  rw [filledPath, String.toList_ofList]
  refine List.foldlRecOn (motive := fun path => c ∉ path) _ _ hpath fun path hmem e _ => ?_
  exact Text.notMem_replace (Text.Percent.notMem_encode _ hc) hmem

/-! ## The query -/

/-- A pair of a query is cut at its equals sign, as neither side has another one. -/
theorem cutText_queryPair (pair : String × String) :
    Text.cutText '=' (queryPair pair) =
      some (Text.Percent.encode pair.1, Text.Percent.encode pair.2) :=
  Text.cutText_append (Text.Percent.notMem_encode pair.1 (by decide)) _

/-- Only encoded characters and the equals sign stand in a pair. -/
theorem notMem_queryPair (pair : String × String) (hc : ¬Text.Percent.IsEncoded c)
    (hequals : c ≠ '=') : c ∉ (queryPair pair).toList := by
  simp [queryPair, Text.Percent.notMem_encode _ hc, hequals]

/-- A pair is read back from a query. -/
theorem readPair?_queryPair (pair : String × String) : readPair? (queryPair pair) = some pair := by
  simp [readPair?, cutText_queryPair, Text.Percent.decode?_encode]

/-- The pieces of a query are its pairs. -/
theorem pieces_query {pairs : List (String × String)} (hne : pairs ≠ []) :
    Text.pieces '&' (String.intercalate "&" (pairs.map queryPair)) = pairs.map queryPair := by
  refine Text.pieces_intercalate (by simpa using hne) fun text htext => ?_
  obtain ⟨pair, -, rfl⟩ := List.mem_map.mp htext
  exact notMem_queryPair pair (by decide) (by decide)

section Url

variable (hbase : '?' ∉ op.baseUrl.toList) (hpath : '?' ∉ op.path.toList)

include hbase hpath

/-- There is no question mark in front of the query. -/
theorem notMem_address (inputs : Inputs) :
    '?' ∉ (op.baseUrl ++ op.filledPath inputs).toList := by
  rw [String.toList_append, List.mem_append, not_or]
  exact ⟨hbase, notMem_filledPath inputs hpath (by decide)⟩

/-- The query stands behind the first question mark, and without a query there is none. -/
theorem cutText_url (inputs : Inputs) :
    Text.cutText '?' (op.url inputs) =
      if op.queryEntries inputs = [] then none
      else some (op.baseUrl ++ op.filledPath inputs,
        String.intercalate "&" ((op.queryEntries inputs).map queryPair)) := by
  have haddress := notMem_address hbase hpath inputs
  unfold url
  rw [query_eq_queryEntries]
  by_cases hempty : op.queryEntries inputs = []
  · -- Neither part of the address has a question mark.
    simp only [hempty, List.isEmpty_nil, if_true, String.append_empty]
    exact Text.cutText_eq_none_iff.mpr haddress
  · simp only [List.isEmpty_iff, if_neg hempty]
    rw [← String.append_assoc]
    exact Text.cutText_append haddress _

/-- The pairs that a query parameter is looked for in are the encoded entries. -/
theorem queryPairs_url (inputs : Inputs) :
    Expression.queryPairs (op.url inputs) = (op.queryEntries inputs).map fun pair =>
      (Text.Percent.encode pair.1, Text.Percent.encode pair.2) := by
  unfold Expression.queryPairs
  rw [cutText_url hbase hpath]
  by_cases hempty : op.queryEntries inputs = []
  · simp [hempty]
  · simp only [if_neg hempty, pieces_query hempty, List.map_map, Function.comp_def,
      cutText_queryPair, Option.getD_some]

/-- The value of a name in the query is the text of the first entry with the name. -/
theorem queryValue?_url (inputs : Inputs) (name : String) :
    Expression.queryValue? (op.url inputs) name =
      ((op.queryEntries inputs).find? fun pair => pair.1 == name).map Prod.snd := by
  unfold Expression.queryValue?
  rw [queryPairs_url hbase hpath, List.find?_map]
  simp only [Function.comp_def, Text.Percent.decode?_encode, Option.some_beq_some]
  cases (op.queryEntries inputs).find? fun pair => pair.1 == name <;>
    simp [Text.Percent.decode?_encode]

end Url

/-- The query of a request is read back as the names and texts that it was made of, and there is a
question mark only if there are any. Where the inputs are not recorded, the value of a query
parameter is the text of the first entry with its name. -/
theorem query_of_request (hbase : '?' ∉ op.baseUrl.toList) (hpath : '?' ∉ op.path.toList)
    (h : op.request inputs = .ok request) :
    ('?' ∉ request.url.toList ↔ op.queryEntries inputs = []) ∧
      (op.queryEntries inputs ≠ [] →
        ∃ address query, Text.cutText '?' request.url = some (address, query) ∧
          (Text.pieces '&' query).map readPair? = (op.queryEntries inputs).map some) ∧
      ∀ r : Result, r.request = request → r.source.bindings = [] → ∀ name,
        (Expression.parameter .request .query name).evaluate r =
            ((op.queryEntries inputs).find? fun pair => pair.1 == name).map
              (fun pair => .string pair.2) ∧
          (name ≠ "" → '\n' ∉ name.toList →
            Formula.resolve (.string ("$request.query." ++ name)) r =
              ((op.queryEntries inputs).find? fun pair => pair.1 == name).map
                (fun pair => .string pair.2)) := by
  obtain ⟨-, rfl⟩ := request_eq_ok_iff.mp h
  have hcut := cutText_url hbase hpath inputs
  refine ⟨?_, ?_, ?_⟩
  · show '?' ∉ (op.url inputs).toList ↔ _
    rw [← Text.cutText_eq_none_iff, hcut]
    split
    next hempty => simp [hempty]
    next hne => simp [hne]
  · intro hne
    refine ⟨_, _, hcut.trans (if_neg hne), ?_⟩
    rw [pieces_query hne, List.map_map]
    exact List.map_congr_left fun pair _ => readPair?_queryPair pair
  · intro r hr hbindings name
    have hevaluate : (Expression.parameter .request .query name).evaluate r =
        ((op.queryEntries inputs).find? fun pair => pair.1 == name).map
          (fun pair => .string pair.2) := by
      -- No binding tells which input it is, so the value is read from the address.
      have hsource : r.source.valueAt .query name = none := by
        simp [Source.valueAt, hbindings]
      show Expression.requestValue? r .query name = _
      unfold Expression.requestValue?
      rw [hsource, Option.none_or, hr]
      show (Expression.queryValue? (op.url inputs) name).map Json.string = _
      rw [queryValue?_url hbase hpath, Option.map_map]
      rfl
    refine ⟨hevaluate, fun hname hline => ?_⟩
    have htext : "$request.query." ++ name =
        Expression.text (.parameter .request .query name) := by
      apply String.toList_inj.mp
      simp [Expression.text, Side.name, Location.name]
    rw [htext, Formula.resolve_text_parameter (Or.inl rfl) hname hline, hevaluate]

/-- An operation with query parameters, of which one has a delimiter in its name. -/
def listVolumes : Operation :=
  .ofSpec "x-relay" "https://api/" none
    { id := "listVolumes", method := "get", path := "/zones/{zone}/volumes"
      parameters := [
        { name := "zone", location := .path, schema := .string },
        { name := "tag&", location := .query, schema := .string },
        { name := "q", location := .query, schema := .string },
        { name := "page", location := .query, schema := .string }] }

/-- Inputs with delimiters in the values, an empty text and no value for one of the parameters. -/
def taggedInputs : Inputs :=
  { parameters := [("q", .string ""), ("tag&", .array [.string "a=b", .string "c&d"]),
      ("zone", .string "br?1")] }

/-- All delimiters in names and values are encoded, also the question mark in the path. -/
theorem query_of_request_listVolumes :
    ∃ request, listVolumes.request taggedInputs = .ok request ∧
      request.url = "https://api/zones/br%3F1/volumes?tag%26=a%3Db&tag%26=c%26d&q=" ∧
      (∃ address query, Text.cutText '?' request.url = some (address, query) ∧
        (Text.pieces '&' query).map readPair? =
          [some ("tag&", "a=b"), some ("tag&", "c&d"), some ("q", "")]) ∧
      ∀ r : Result, r.request = request → r.source.bindings = [] →
        Formula.resolve (.string "$request.query.tag&") r = some (.string "a=b") := by
  have hrun : (match listVolumes.request taggedInputs with
      | .error _ => false
      | .ok request => request.url ==
          "https://api/zones/br%3F1/volumes?tag%26=a%3Db&tag%26=c%26d&q=") = true := by
    decide +kernel
  have hentries : listVolumes.queryEntries taggedInputs =
      [("tag&", "a=b"), ("tag&", "c&d"), ("q", "")] := by decide +kernel
  split at hrun
  next => cases hrun
  next request hrequest =>
    obtain ⟨-, hread, hevaluate⟩ :=
      query_of_request (by decide +kernel) (by decide +kernel) hrequest
    rw [hentries] at hread hevaluate
    refine ⟨request, hrequest, by simpa using hrun, hread (by simp), fun r hr hbindings => ?_⟩
    exact (hevaluate r hr hbindings "tag&").2 (by decide) (by decide)

end Operation

end ApiCommand
