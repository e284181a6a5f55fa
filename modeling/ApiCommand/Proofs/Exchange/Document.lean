import ApiCommand.Exchange.Document
import ApiCommand.Proofs.Json.RoundTrip

/-!
# Reading what is written for an exchange

Each part of an exchange is read back from what is written for it, field by field. The one thing
that is lost is a body that is null, which is written like a body that is not there. So a result is
read as what is kept of it (`Result.kept`, `Result.ofJson?_toJson`), which is the result itself
unless a body is null (`Result.kept_eq_self_iff`).

The text of what is written is read back as well if nothing in the values of the result stands in
the way of it (`Result.Legible`, `Result.parse?_text_toJson`).
-/

namespace ApiCommand

namespace Json

variable {depth : Nat}

/-! ## Written records -/

section Reading

variable {α : Type} {read : Json → Option α} {write : α → Json}

theorem recordOf?_ofMembers (fields : List String) (entries : List (String × Json)) :
    (ofMembers entries).recordOf? fields = some (Dict.ofList entries) := rfl

/-- A member that is asked for is the last one under its key. -/
theorem required_ofList (read : Json → Option α) (entries : List (String × Json)) (key : String) :
    required read (Dict.ofList entries) key = (Dict.get? entries.reverse key).bind read := by
  rw [required, Dict.get?_ofList]

/-- Of a value that may be absent, absence is written as null. -/
theorem optional_optionalString {record : Dict Json} {key : String} {o : Option String}
    (h : Dict.get? record key = some (optionalString o)) :
    optional asString? record key = some o := by
  unfold optional
  rw [h]
  cases o <;> rfl

/-- The same for any value: what is read is not null. -/
theorem optional_getD_null {record : Dict Json} {key : String} {o : Option Json}
    (h : Dict.get? record key = some (o.getD .null)) :
    optional asValue? record key = some (o.bind notNull?) := by
  unfold optional
  rw [h]
  cases o with
  | none => rfl
  | some v => cases v <;> rfl

/-- A number that is small enough is read back. -/
theorem asNatBelow?_nat {n bound : Nat} (h : n < bound) :
    asNatBelow? bound (.nat n) = some n := by
  have hint : (0 : Int) ≤ n ∧ (n : Int) < bound :=
    ⟨Int.natCast_nonneg n, Int.ofNat_lt.mpr h⟩
  exact if_pos hint

/-- A list is read item by item. -/
theorem mapM_map {β : Type} {f : β → Option α} {g : α → β} (h : ∀ a, f (g a) = some a)
    (items : List α) : (items.map g).mapM f = some items := by
  induction items with
  | nil => rfl
  | cons a items ih =>
    rw [List.map_cons, List.mapM_cons, h, ih]
    rfl

/-- A list is read back as far as its items are. -/
theorem listOf?_map (h : ∀ a, read (write a) = some a) (items : List α) :
    listOf? read (.array (items.map write)) = some items := mapM_map h items

/-- A dictionary is read back as far as its values are. -/
theorem dictOf?_mapValues (h : ∀ a, read (write a) = some a) (d : Dict α) :
    dictOf? read (.object (Dict.mapValues write d)) = some d := by
  have hentry : ∀ e : String × α, (read (write e.2)).map (fun x => (e.1, x)) = some e := fun e => by
    rw [h, Option.map_some]
  exact mapM_map hentry d

end Reading

/-! ## Texts of records -/

/-- An object can be read back one level deeper than its members. -/
theorem readable_ofMembers {entries : List (String × Json)}
    (h : ∀ e ∈ entries, Readable depth e.2) : Readable (depth + 1) (ofMembers entries) :=
  .object (Dict.sorted_ofList entries) fun e he => h e (Dict.mem_of_mem_ofList he)

/-- A list can be read back one level deeper than its items. -/
theorem readable_map {α : Type} {write : α → Json} {items : List α}
    (h : ∀ a ∈ items, Readable depth (write a)) :
    Readable (depth + 1) (.array (items.map write)) := by
  refine .array fun v hv => ?_
  obtain ⟨a, ha, rfl⟩ := List.mem_map.mp hv
  exact h a ha

theorem readable_nat {n : Nat} (h : n < 2 ^ 64) : Readable depth (.nat n) :=
  .number ⟨by omega, by omega⟩

theorem readable_optionalString (o : Option String) : Readable depth (optionalString o) := by
  cases o with
  | none => exact .null
  | some text => exact .string text

/-- A body that is missing is written as null, which can be read back. -/
theorem readable_getD_null {o : Option Json} (h : ∀ v ∈ o, Readable depth v) :
    Readable depth (o.getD .null) := by
  cases o with
  | none => exact .null
  | some v => exact h v rfl

end Json

open Json (Readable)

/-! ## Inputs -/

theorem Location.ofJson?_name (l : Location) : ofJson? (.string l.name) = some l := by
  cases l <;> rfl

namespace Binding

/-- A binding is read back from its text. -/
theorem ofJson?_toJson (b : Binding) : ofJson? b.toJson = some b := by
  simp [ofJson?, toJson, Json.recordOf?_ofMembers, Json.required_ofList, Json.asString?,
    Location.ofJson?_name]

theorem readable_toJson (b : Binding) {depth : Nat} : Readable (depth + 1) b.toJson := by
  refine Json.readable_ofMembers ?_
  simp only [List.forall_mem_cons]
  exact ⟨.string _, .string _, .string _, List.forall_mem_nil _⟩

end Binding

namespace Source

/-- A source is read back from its text. -/
theorem ofJson?_toJson (s : Source) : ofJson? s.toJson = some s := by
  simp [ofJson?, toJson, Json.recordOf?_ofMembers, Json.required_ofList, Json.defaulted,
    Dict.get?_ofList, Json.asString?, Json.asObject?, Json.listOf?_map Binding.ofJson?_toJson]

/-- The inputs of a source are its only values that nest. -/
theorem readable_toJson {s : Source} {depth : Nat}
    (hparameters : Readable (depth + 2) (.object s.inputs.parameters))
    (hconfigs : Readable (depth + 2) (.object s.inputs.configs)) :
    Readable (depth + 3) s.toJson := by
  have hbindings : Readable (depth + 2) (.array (s.bindings.map Binding.toJson)) :=
    Json.readable_map fun b _ => b.readable_toJson
  refine Json.readable_ofMembers ?_
  simp only [List.forall_mem_cons]
  exact ⟨.string _, hparameters, hconfigs, hbindings, List.forall_mem_nil _⟩

end Source

/-! ## Requests and responses -/

/-- Headers are read back from their text. -/
theorem textDict?_headersJson (headers : Dict String) :
    Json.textDict? (headersJson headers) = some headers :=
  @Json.dictOf?_mapValues _ _ Json.string (fun _ => rfl) headers

/-- The text of headers is an object of strings. -/
theorem readable_headersJson {headers : Dict String} (h : Dict.Sorted headers) {depth : Nat} :
    Readable (depth + 1) (headersJson headers) := by
  refine .object (h.mapValues _) fun e he => ?_
  obtain ⟨e, -, rfl⟩ := List.mem_map.mp he
  exact .string _

namespace Request

/-- What is read back of a request: all but a body that is null. -/
def kept (r : Request) : Request := { r with body := r.body.bind Json.notNull? }

/-- A request is read back without a body that is null. -/
theorem ofJson?_toJson (r : Request) : ofJson? r.toJson = some r.kept := by
  simp [ofJson?, toJson, Json.recordOf?_ofMembers, Json.required_ofList, Json.defaulted,
    Dict.get?_ofList, Json.asString?, textDict?_headersJson, Json.optional_getD_null (o := r.body),
    kept]

/-- A request can be read back one level deeper than its body and its headers. -/
theorem readable_toJson {r : Request} {depth : Nat} (hheaders : Dict.Sorted r.headers)
    (hbody : ∀ v ∈ r.body, Readable (depth + 1) v) : Readable (depth + 2) r.toJson := by
  refine Json.readable_ofMembers ?_
  simp only [List.forall_mem_cons]
  exact ⟨.string _, .string _, readable_headersJson hheaders, Json.readable_getD_null hbody,
    List.forall_mem_nil _⟩

end Request

namespace Response

/-- What is read back of a response: all but a body that is null. -/
def kept (r : Response) : Response := { r with body := r.body.bind Json.notNull? }

/-- A response is read back in the same way, if its status is one. -/
theorem ofJson?_toJson {r : Response} (h : r.status < statusBound) :
    ofJson? r.toJson = some r.kept := by
  -- Steps by definition would make the kernel count up to the bound of the status.
  simp -implicitDefEqProofs [ofJson?, toJson, Json.recordOf?_ofMembers, Json.required_ofList,
    Json.defaulted, Dict.get?_ofList, Json.asNatBelow?_nat h, textDict?_headersJson,
    Json.optional_getD_null (o := r.body), kept]

/-- A response can be read back one level deeper than its body and its headers. -/
theorem readable_toJson {r : Response} {depth : Nat} (hstatus : r.status < statusBound)
    (hheaders : Dict.Sorted r.headers) (hbody : ∀ v ∈ r.body, Readable (depth + 1) v) :
    Readable (depth + 2) r.toJson := by
  have hword : r.status < 2 ^ 64 := hstatus.trans (by decide)
  refine Json.readable_ofMembers ?_
  simp only [List.forall_mem_cons]
  exact ⟨Json.readable_nat hword, readable_headersJson hheaders, Json.readable_getD_null hbody,
    List.forall_mem_nil _⟩

end Response

/-! ## Payloads -/

theorem bytesOf?_bytesJson (bytes : List UInt8) : bytesOf? (bytesJson bytes) = some bytes := by
  refine Json.listOf?_map (fun b => ?_) bytes
  rw [Json.asNatBelow?_nat b.toNat_lt, Option.map_some, UInt8.ofNat_toNat]

theorem readable_bytesJson (bytes : List UInt8) {depth : Nat} :
    Readable (depth + 1) (bytesJson bytes) :=
  Json.readable_map fun b _ => Json.readable_nat (b.toNat_lt.trans (by decide))

namespace Part

/-- A part of a form is read back from its text. -/
theorem ofJson?_toJson (p : Part) : ofJson? p.toJson = some p := by
  simp [ofJson?, toJson, Json.recordOf?_ofMembers, Json.required_ofList, Dict.get?_ofList,
    Json.asString?, Json.optional_optionalString (o := p.contentType), bytesOf?_bytesJson]

theorem readable_toJson (p : Part) {depth : Nat} : Readable (depth + 2) p.toJson := by
  refine Json.readable_ofMembers ?_
  simp only [List.forall_mem_cons]
  exact ⟨.string _, Json.readable_optionalString _, readable_bytesJson _, List.forall_mem_nil _⟩

end Part

namespace Payload

/-- A payload is read back, whatever its kind is. -/
theorem ofJson?_toJson (p : Payload) : ofJson? p.toJson = some p := by
  cases p <;>
    simp [ofJson?, toJson, Json.recordOf?_ofMembers, Json.required_ofList, Dict.get?_ofList,
      Json.asString?, bytesOf?_bytesJson, Json.listOf?_map Part.ofJson?_toJson]

/-- Only a payload that is a value can nest deeper than the list of parts. -/
theorem readable_toJson {p : Payload} {depth : Nat}
    (h : ∀ v, p = .value v → Readable (depth + 3) v) : Readable (depth + 4) p.toJson := by
  have hdata : ∀ kind data, Readable (depth + 3) data →
      Readable (depth + 4) (.ofMembers [("kind", .string kind), ("data", data)]) := by
    intro kind data hdata
    refine Json.readable_ofMembers ?_
    simp only [List.forall_mem_cons]
    exact ⟨.string _, hdata, List.forall_mem_nil _⟩
  cases p with
  | value v => exact hdata _ _ (h v rfl)
  | stream bytes => exact hdata _ _ (readable_bytesJson bytes)
  | parts ps => exact hdata _ _ (Json.readable_map fun p _ => p.readable_toJson)

end Payload

/-! ## Results -/

namespace Result

/-- What is read back of a result: all but bodies that are null. -/
def kept (r : Result) : Result :=
  { r with request := r.request.kept, response := r.response.kept }

/-- A result is read back from what is written for it, but for bodies that are null. -/
theorem ofJson?_toJson {r : Result} (h : r.response.status < Response.statusBound) :
    ofJson? r.toJson = some r.kept := by
  simp -implicitDefEqProofs [ofJson?, toJson, Json.recordOf?_ofMembers, Json.required_ofList,
    Source.ofJson?_toJson, Request.ofJson?_toJson, Response.ofJson?_toJson h,
    Payload.ofJson?_toJson, kept]

/-- Reading loses a body in one case only. -/
theorem bind_notNull?_eq_self_iff {o : Option Json} :
    o.bind Json.notNull? = o ↔ o ≠ some .null := by
  cases o with
  | none => simp
  | some v => cases v <;> simp [Json.notNull?]

/-- Nothing is lost of a result whose bodies are not null. -/
theorem kept_eq_self_iff {r : Result} :
    r.kept = r ↔ r.request.body ≠ some .null ∧ r.response.body ≠ some .null := by
  rw [← bind_notNull?_eq_self_iff, ← bind_notNull?_eq_self_iff]
  constructor
  · intro h
    exact ⟨congrArg (fun r => r.request.body) h, congrArg (fun r => r.response.body) h⟩
  · rintro ⟨hrequest, hresponse⟩
    rw [kept, Request.kept, Response.kept, hrequest, hresponse]

/-- Nothing in the result stands in the way of reading its text back: the dictionaries are in
order, every number is read back, and with the two containers that are written around them, the
values are not nested too deep. -/
structure Legible (r : Result) : Prop where
  parameters : Readable (Json.maxDepth - 2) (.object r.source.inputs.parameters)
  configs : Readable (Json.maxDepth - 2) (.object r.source.inputs.configs)
  requestHeaders : Dict.Sorted r.request.headers
  requestBody : ∀ v ∈ r.request.body, Readable (Json.maxDepth - 2) v
  responseHeaders : Dict.Sorted r.response.headers
  responseBody : ∀ v ∈ r.response.body, Readable (Json.maxDepth - 2) v
  payload : ∀ v, r.payload = .value v → Readable (Json.maxDepth - 2) v

/-- The text of a legible result can be read back. -/
theorem readable_toJson {r : Result} (hstatus : r.response.status < Response.statusBound)
    (h : r.Legible) : Readable Json.maxDepth r.toJson := by
  refine Json.readable_ofMembers ?_
  simp only [List.forall_mem_cons]
  exact ⟨Source.readable_toJson h.parameters h.configs,
    Request.readable_toJson h.requestHeaders h.requestBody,
    Response.readable_toJson hstatus h.responseHeaders h.responseBody,
    Payload.readable_toJson h.payload, List.forall_mem_nil _⟩

/-- What is written as text is read as what was written. -/
theorem parse?_text_toJson {r : Result} (hstatus : r.response.status < Response.statusBound)
    (h : r.Legible) : Json.parse? r.toJson.text = some r.toJson :=
  Json.parse?_text (readable_toJson hstatus h)

end Result

end ApiCommand
