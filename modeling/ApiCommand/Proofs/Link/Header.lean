import ApiCommand.Proofs.Catalog.Request
import ApiCommand.Proofs.Link.Grammar

/-!
# Headers and the case of names

Headers are found up to the case of their names, in requests as in responses (`findHeader_congr`).
But the inputs of a call are found by their exact names, and they come first. So whether a header of
a request has a value does not depend on case, but the value itself is the input under the declared
spelling and the text that was sent under all others (`header_of_execute`).
-/

namespace ApiCommand

namespace Text

variable {a b c : String}

theorem sameAscii_iff : sameAscii a b ↔ asciiLower a = asciiLower b := beq_iff_eq

theorem sameAscii_refl (a : String) : sameAscii a a := sameAscii_iff.mpr rfl

theorem sameAscii_comm : sameAscii a b ↔ sameAscii b a := by
  rw [sameAscii_iff, sameAscii_iff, eq_comm]

/-- Names that differ in case only compare alike. -/
theorem sameAscii_congr_right (h : sameAscii a b) : sameAscii c a = sameAscii c b := by
  rw [sameAscii, sameAscii_iff.mp h, sameAscii]

/-- Headers are found whatever the case of their names. -/
theorem findHeader_congr {α : Type} (headers : Dict α) (h : sameAscii a b) :
    findHeader headers a = findHeader headers b := by
  simp only [findHeader, sameAscii_congr_right h]

/-- A name differs from the empty one in any case. -/
theorem eq_empty_iff_of_sameAscii (h : sameAscii a b) : a = "" ↔ b = "" := by
  have hempty : ∀ s : String, asciiLower s = "" ↔ s = "" := by
    intro s
    simp [asciiLower]
  rw [← hempty a, ← hempty b, sameAscii_iff.mp h]

/-- Only a line feed becomes one in lower case. -/
theorem toLower_eq_newline_iff {c : Char} : c.toLower = '\n' ↔ c = '\n' := by
  refine ⟨fun h => ?_, fun h => by rw [h]; rfl⟩
  unfold Char.toLower at h
  split at h
  next hupper =>
    -- The lower case of a letter is a letter.
    have hlow : 65 ≤ c.toNat := UInt32.le_iff_toNat_le.mp hupper.1
    have hhigh : c.toNat ≤ 90 := UInt32.le_iff_toNat_le.mp hupper.2
    have hcode : (c.toNat + 32) % 4294967296 = 10 := by
      simpa using congrArg (fun c : Char => c.val.toNat) h
    omega
  next => exact h

/-- A line feed in a name is there in any case. -/
theorem newline_mem_iff_of_sameAscii (h : sameAscii a b) : '\n' ∈ a.toList ↔ '\n' ∈ b.toList := by
  have hmem : ∀ s : String, '\n' ∈ (asciiLower s).toList ↔ '\n' ∈ s.toList := by
    intro s
    simp [asciiLower, toLower_eq_newline_iff]
  rw [← hmem a, ← hmem b, sameAscii_iff.mp h]

end Text

namespace Expression

/-- The text of the expression for a header. -/
def headerText (side : Side) (name : String) : String := text (parameter side .header name)

/-- A header whose name is empty or not on one line cannot be named. -/
theorem not_spells_headerText {side : Side} {name : String} (h : name = "" ∨ '\n' ∈ name.toList)
    (e : Expression) : ¬e.Spells (headerText side name) := by
  intro hspells
  have htext : (headerText side name).toList =
      ("$" ++ side.name ++ ".").toList ++
        ((Location.header.name ++ ".").toList ++ name.toList) := by
    simp [headerText, text]
  have hread := parse_eq_ok_iff.mpr hspells
  rw [parse_eq_readPart htext, readPart_eq_ok_iff] at hread
  obtain ⟨location, other, hread, -⟩ | ⟨rest, -, hrest, -⟩ := hread
  · obtain ⟨hsplit, hne, hline⟩ := readParameter?_eq_some_iff.mp hread
    have hname : other = name := by
      cases location <;> simp [Location.name] at hsplit
      exact String.toList_injective hsplit.symm
    subst hname
    exact h.elim hne hline
  · simp [Location.name] at hrest

/-- A header of a request is looked up among the inputs first, by its exact name. -/
theorem evaluate_request_header (name : String) (r : Result) :
    (parameter .request .header name).evaluate r =
      (r.source.valueAt .header name).or
        ((Text.findHeader r.request.headers name).map Json.string) := rfl

/-- The name can stand in an expression. -/
def IsExpressible (name : String) : Prop := name ≠ "" ∧ '\n' ∉ name.toList

/-- Whether a name can stand in an expression does not depend on case. -/
theorem isExpressible_iff_of_sameAscii {a b : String} (h : Text.sameAscii a b) :
    IsExpressible a ↔ IsExpressible b := by
  rw [IsExpressible, IsExpressible, ne_eq, Text.eq_empty_iff_of_sameAscii h,
    Text.newline_mem_iff_of_sameAscii h]

/-- What the text of the expression for a header stands for in an exchange. -/
def headerValue (side : Side) (name : String) (r : Result) : Option Json :=
  Formula.resolve (.string (Expression.headerText side name)) r

/-- For a name that can stand in an expression, the text is that of the parameter. -/
theorem headerValue_of_isExpressible {side : Side} {name : String} (h : IsExpressible name)
    (r : Result) :
    headerValue side name r = (Expression.parameter side .header name).evaluate r :=
  Formula.resolve_text_parameter (.inr rfl) h.1 h.2 r

/-- Other names make no expression. -/
theorem headerValue_of_not_isExpressible {side : Side} {name : String} (h : ¬IsExpressible name)
    (r : Result) : headerValue side name r = none := by
  rw [IsExpressible, not_and_or, not_not, not_not] at h
  have hdollar : (Expression.headerText side name).toList.head? = some '$' := by
    simp [Expression.headerText, Expression.text]
  have herror : ∀ f, Formula.parse (.string (Expression.headerText side name)) ≠ .ok f := by
    intro f hf
    obtain ⟨e, rfl⟩ := Formula.eq_expression_of_parse hdollar hf
    exact Expression.not_spells_headerText h e (Formula.parse_eq_ok_expression_iff.mp hf)
  rw [headerValue, Formula.resolve]
  split
  next f hf => exact absurd hf (herror f)
  next => rfl

/-- In a response, case does not decide what the expression for a header stands for. -/
theorem headerValue_response_congr {a b : String} (h : Text.sameAscii a b) (r : Result) :
    headerValue .response a r = headerValue .response b r := by
  by_cases ha : IsExpressible a
  · have hb := (isExpressible_iff_of_sameAscii h).mp ha
    rw [headerValue_of_isExpressible ha, headerValue_of_isExpressible hb, evaluate, evaluate,
      Text.findHeader_congr _ h]
  · have hb := mt (isExpressible_iff_of_sameAscii h).mpr ha
    rw [headerValue_of_not_isExpressible ha, headerValue_of_not_isExpressible hb]

end Expression

namespace Operation

open Expression

variable {op : Operation} {inputs : Inputs} {cancelled : Bool} {r : Result}

/-- An exchange records the headers, the inputs and the bindings of its operation. -/
theorem of_execute (h : op.execute cancelled inputs = .ok r) :
    r.request.headers = op.headers inputs ∧ r.source.inputs = inputs ∧
      r.source.bindings = op.bindings := by
  unfold execute at h
  cases hrequest : op.request inputs with
  | error fault => simp [hrequest, bind, Except.bind] at h
  | ok request =>
    obtain ⟨-, hheaders⟩ := request_eq_ok_iff.mp hrequest
    cases hecho : request.echo cancelled with
    | error fault => simp [hrequest, hecho, bind, Except.bind] at h
    | ok response =>
      simp only [hrequest, hecho, bind, Except.bind, Except.ok.injEq] at h
      subst h
      exact ⟨congrArg Request.headers hheaders, rfl, rfl⟩

/-! ## Headers that are sent -/

/-- The headers for the inputs. -/
def ownHeaders (op : Operation) (inputs : Inputs) : List (String × String) :=
  (op.given inputs .header).map fun e => (e.1, e.2.plainText)

/-- The headers for the inputs are one for each header binding with a value. -/
theorem mem_ownHeaders_iff {name text : String} :
    (name, text) ∈ op.ownHeaders inputs ↔
      ∃ b ∈ op.bindings, b.location = .header ∧ b.wireName = name ∧
        ∃ v, valueOf inputs b = some v ∧ v.plainText = text := by
  simp only [ownHeaders, List.mem_map, Prod.exists, Prod.mk.injEq, mem_given_iff]
  constructor
  · rintro ⟨_, v, ⟨b, hb, hlocation, hname, hv⟩, rfl, htext⟩
    exact ⟨b, hb, hlocation, hname, v, hv, htext⟩
  · rintro ⟨b, hb, hlocation, hname, v, hv, htext⟩
    exact ⟨name, v, ⟨b, hb, hlocation, hname, hv⟩, rfl, htext⟩

/-- The headers for cookies and for the type of the body. -/
def addedHeaders (op : Operation) (inputs : Inputs) : List (String × String) :=
  (if (op.cookies inputs).isEmpty then []
    else
      [("Cookie", String.intercalate "; " ((op.cookies inputs).map fun e => e.1 ++ "=" ++ e.2))]) ++
  if (op.body inputs).isNone then [] else [("Content-Type", "application/json")]

/-- The headers of a request are those for the inputs and the added ones. -/
theorem headers_eq (op : Operation) (inputs : Inputs) :
    op.headers inputs = Dict.ofList (op.ownHeaders inputs ++ op.addedHeaders inputs) := by
  unfold headers addedHeaders
  dsimp only
  rw [Dict.ofList_append]
  split <;> split <;> rfl

/-- Besides those for inputs, there are only headers with two names. -/
theorem mem_ownHeaders_of_mem_headers {e : String × String} (h : e ∈ op.headers inputs)
    (hcookie : e.1 ≠ "Cookie") (htype : e.1 ≠ "Content-Type") : e ∈ op.ownHeaders inputs := by
  rw [headers_eq] at h
  refine (List.mem_append.mp (Dict.mem_of_mem_ofList h)).resolve_right fun hadded => ?_
  rcases List.mem_append.mp hadded with hadded | hadded
  · split at hadded
    next => cases hadded
    next =>
      rw [List.mem_singleton.mp hadded] at hcookie
      exact hcookie rfl
  · split at hadded
    next => cases hadded
    next =>
      rw [List.mem_singleton.mp hadded] at htype
      exact htype rfl

/-- A request has every header for its inputs. -/
theorem contains_headers {e : String × String} (h : e ∈ op.ownHeaders inputs) :
    Dict.contains (op.headers inputs) e.1 := by
  rw [headers_eq]
  exact Dict.contains_ofList (List.mem_append_left _ h)

/-! ## Inputs and sent headers -/

/-- An input that is found under a name is sent under this name. -/
theorem mem_ownHeaders_of_valueAt (h : op.execute cancelled inputs = .ok r) {name : String}
    {v : Json} (hv : r.source.valueAt .header name = some v) :
    (name, v.plainText) ∈ op.ownHeaders inputs := by
  obtain ⟨-, hinputs, hbindings⟩ := of_execute h
  obtain ⟨b, hfind, hget⟩ := Option.bind_eq_some_iff.mp hv
  have hb := List.find?_some hfind
  have hmem := List.mem_of_find?_eq_some hfind
  rw [Bool.and_eq_true, beq_iff_eq, beq_iff_eq] at hb
  obtain ⟨hlocation, rfl⟩ := hb
  rw [hbindings] at hmem
  rw [hinputs, ← hlocation] at hget
  exact mem_ownHeaders_iff.mpr ⟨b, hmem, hlocation, rfl, v, hget, rfl⟩

/-- Such a header is found under its name in any case. -/
theorem isSome_findHeader_of_mem {e : String × String} (h : e ∈ op.ownHeaders inputs)
    {name : String} (hname : Text.sameAscii e.1 name) :
    (Text.findHeader (op.headers inputs) name).isSome := by
  obtain ⟨text, htext⟩ := Dict.exists_mem_of_contains (contains_headers h)
  rw [Text.findHeader, Option.isSome_map, List.find?_isSome]
  exact ⟨_, htext, hname⟩

/-- A header of the request is found exactly if one was sent. -/
theorem isSome_headerValue_iff (h : op.execute cancelled inputs = .ok r) {name : String}
    (hname : IsExpressible name) :
    (headerValue .request name r).isSome ↔ (Text.findHeader r.request.headers name).isSome := by
  rw [headerValue_of_isExpressible hname, evaluate_request_header, Option.isSome_or,
    Option.isSome_map, Bool.or_eq_true, or_iff_right_iff_imp]
  intro hvalue
  obtain ⟨v, hv⟩ := Option.isSome_iff_exists.mp hvalue
  rw [(of_execute h).1]
  exact isSome_findHeader_of_mem (mem_ownHeaders_of_valueAt h hv) (Text.sameAscii_refl name)

/-- Whether a header has a value does not depend on the case of its name. -/
theorem isSome_headerValue_congr (h : op.execute cancelled inputs = .ok r) {name name' : String}
    (hname : Text.sameAscii name name') :
    (headerValue .request name r).isSome ↔ (headerValue .request name' r).isSome := by
  by_cases hn : IsExpressible name
  · have hn' := (isExpressible_iff_of_sameAscii hname).mp hn
    rw [isSome_headerValue_iff h hn, isSome_headerValue_iff h hn', Text.findHeader_congr _ hname]
  · have hn' := mt (isExpressible_iff_of_sameAscii hname).mpr hn
    rw [headerValue_of_not_isExpressible hn, headerValue_of_not_isExpressible hn']

/-- The header is declared once, whatever the case, and it is none that a request has anyway. -/
structure IsOnlyHeader (op : Operation) (b : Binding) : Prop where
  mem : b ∈ op.bindings
  location_eq : b.location = .header
  unique : ∀ b' ∈ op.bindings, b'.location = .header →
    Text.sameAscii b'.wireName b.wireName → b' = b
  not_cookie : ¬Text.sameAscii "Cookie" b.wireName
  not_type : ¬Text.sameAscii "Content-Type" b.wireName

section Only

variable {b : Binding} (hb : op.IsOnlyHeader b) {v : Json} (hv : valueOf inputs b = some v)
  {name : String} (hname : Text.sameAscii name b.wireName)

include hb hv hname

/-- What is sent is the text of the value. -/
theorem IsOnlyHeader.findHeader_eq :
    Text.findHeader (op.headers inputs) name = some v.plainText := by
  have hmem : (b.wireName, v.plainText) ∈ op.ownHeaders inputs :=
    mem_ownHeaders_iff.mpr ⟨b, hb.mem, hb.location_eq, rfl, v, hv, rfl⟩
  obtain ⟨text, htext⟩ := Option.isSome_iff_exists.mp
    (isSome_findHeader_of_mem hmem (Text.sameAscii_comm.mp hname))
  obtain ⟨⟨key, text'⟩, hfind, rfl⟩ := Option.map_eq_some_iff.mp htext
  -- Whatever entry is found, it is for an input with such a name, and there is only one.
  have hkey := List.find?_some hfind
  rw [Text.sameAscii_congr_right hname] at hkey
  have hown := mem_ownHeaders_of_mem_headers (List.mem_of_find?_eq_some hfind)
    (by rintro rfl; exact hb.not_cookie hkey) (by rintro rfl; exact hb.not_type hkey)
  obtain ⟨b', hb', hlocation, rfl, w, hw, rfl⟩ := mem_ownHeaders_iff.mp hown
  obtain rfl := hb.unique b' hb' hlocation hkey
  cases hv.symm.trans hw
  exact htext

/-- The value is found under the declared spelling and no other one. -/
theorem IsOnlyHeader.valueAt_eq (h : op.execute cancelled inputs = .ok r) :
    r.source.valueAt .header name = if name = b.wireName then some v else none := by
  obtain ⟨-, hinputs, hbindings⟩ := of_execute h
  rw [Source.valueAt, hbindings, hinputs]
  -- The binding is the only one for the name, so that it is the one that is found.
  have hfind : op.bindings.find? (fun b' => b'.location == .header && b'.wireName == name) =
      if name = b.wireName then some b else none := by
    split
    next heq =>
      have hsome : (op.bindings.find? fun b' =>
          b'.location == .header && b'.wireName == name).isSome :=
        List.find?_isSome.mpr ⟨b, hb.mem, by simp [hb.location_eq, heq]⟩
      obtain ⟨b', hb'⟩ := Option.isSome_iff_exists.mp hsome
      have hspec := List.find?_some hb'
      rw [Bool.and_eq_true, beq_iff_eq, beq_iff_eq] at hspec
      rw [hb', hb.unique b' (List.mem_of_find?_eq_some hb') hspec.1 (by rwa [hspec.2])]
    next hne =>
      refine List.find?_eq_none.mpr fun b' hb' hspec => hne ?_
      rw [Bool.and_eq_true, beq_iff_eq, beq_iff_eq] at hspec
      rw [← hb.unique b' hb' hspec.1 (by rwa [hspec.2]), hspec.2]
  rw [hfind]
  have hvalue : Dict.get? (inputs.at .header) b.externalName = some v := by
    rw [← hb.location_eq]
    exact hv
  split
  next => exact hvalue
  next => rfl

/-- The declared spelling stands for the value, and every other one for the text of the value. -/
theorem IsOnlyHeader.headerValue_eq (h : op.execute cancelled inputs = .ok r)
    (hexpressible : IsExpressible name) :
    headerValue .request name r = some (if name = b.wireName then v else .string v.plainText) := by
  obtain ⟨hheaders, -⟩ := of_execute h
  rw [headerValue_of_isExpressible hexpressible, evaluate_request_header, hheaders,
    hb.findHeader_eq hv hname, hb.valueAt_eq hv hname h]
  split <;> rfl

end Only

/-- What the case of names decides in the expressions for headers of an exchange. -/
structure HeaderCases (op : Operation) (inputs : Inputs) (r : Result) : Prop where
  response_eq : ∀ n n', Text.sameAscii n n' →
    headerValue .response n r = headerValue .response n' r
  /-- Whether a header of the request is found does not depend on case. -/
  isSome_iff : ∀ n n', Text.sameAscii n n' →
    ((headerValue .request n r).isSome ↔ (headerValue .request n' r).isSome)
  /-- All spellings stand for one text, apart from those that an input was declared with. -/
  sent : ∀ n, IsExpressible n → ∃ text : Option String, ∀ n', Text.sameAscii n n' →
    headerValue .request n' r = (r.source.valueAt .header n').or (text.map Json.string)
  /-- Of a header that is declared once, the text that all other spellings stand for is that of the
  value. -/
  only : ∀ b v, op.IsOnlyHeader b → valueOf inputs b = some v →
    ∀ n, Text.sameAscii n b.wireName → IsExpressible n →
      headerValue .request n r = some (if n = b.wireName then v else .string v.plainText)
  /-- So another spelling stands for the same value exactly if the value is a text. -/
  only_eq_iff : ∀ b v, op.IsOnlyHeader b → valueOf inputs b = some v →
    ∀ n, Text.sameAscii n b.wireName → IsExpressible n → n ≠ b.wireName →
      (headerValue .request n r = headerValue .request b.wireName r ↔ ∃ text, v = .string text)

/-- After every call, case does not decide which headers are found. But under the declared spelling
a header of the request has the value that was given, and under any other the text that was sent. -/
theorem header_of_execute (h : op.execute cancelled inputs = .ok r) : op.HeaderCases inputs r := by
  have honly : ∀ b v, op.IsOnlyHeader b → valueOf inputs b = some v →
      ∀ n, Text.sameAscii n b.wireName → IsExpressible n →
        headerValue .request n r = some (if n = b.wireName then v else .string v.plainText) :=
    fun b v hb hv n hname hn => hb.headerValue_eq hv hname h hn
  refine ⟨fun n n' hname => headerValue_response_congr hname r,
    fun n n' hname => isSome_headerValue_congr h hname, ?_, honly, ?_⟩
  · -- The text is what was sent, which is looked for whatever the case.
    intro n hn
    refine ⟨Text.findHeader r.request.headers n, fun n' hname => ?_⟩
    rw [headerValue_of_isExpressible ((isExpressible_iff_of_sameAscii hname).mp hn),
      evaluate_request_header, Text.findHeader_congr _ hname]
  · intro b v hb hv n hname hn hne
    have hn' := (isExpressible_iff_of_sameAscii hname).mp hn
    rw [honly b v hb hv n hname hn, honly b v hb hv _ (Text.sameAscii_refl _) hn', if_neg hne,
      if_pos rfl, Option.some.injEq]
    constructor
    · intro heq
      exact ⟨_, heq.symm⟩
    · rintro ⟨text, rfl⟩
      rfl

/-- An operation with a header for a number. -/
def getZone : Operation :=
  .ofSpec "x-relay" "https://api" none
    { id := "getZone", method := "get", path := "/zone"
      parameters := [{ name := "X-Zone", location := .header, schema := .integer }] }

/-- The binding of the header. -/
def zoneBinding : Binding := ⟨"X-Zone", "X-Zone", .header⟩

/-- A number for the header. -/
def zoneInputs : Inputs := { configs := [("X-Zone", .number (.int 5))] }

/-- The operation declares its header once. -/
theorem isOnlyHeader_zoneBinding : getZone.IsOnlyHeader zoneBinding := by
  have hbindings : getZone.bindings = [zoneBinding] := by decide +kernel
  refine ⟨by rw [hbindings]; exact List.mem_singleton_self _, rfl, fun b hb _ _ => ?_,
    by decide, by decide⟩
  rw [hbindings] at hb
  exact List.mem_singleton.mp hb

/-- The operation can be called with the number. -/
theorem exists_execute_getZone : ∃ r, getZone.execute false zoneInputs = .ok r := by
  have hrun : (getZone.execute false zoneInputs).toOption.isSome := by decide +kernel
  cases hexecute : getZone.execute false zoneInputs with
  | ok r => exact ⟨r, rfl⟩
  | error fault => simp [hexecute, Except.toOption] at hrun

/-- The header is found under both names. -/
theorem header_of_execute_getZone :
    ∃ r, getZone.execute false zoneInputs = .ok r ∧ Text.sameAscii "X-Zone" "x-zone" ∧
      (headerValue .request "X-Zone" r).isSome ∧ (headerValue .request "x-zone" r).isSome := by
  obtain ⟨r, hr⟩ := exists_execute_getZone
  have hcases := header_of_execute hr
  have hsame : Text.sameAscii "X-Zone" "x-zone" := by decide
  have hvalue := hcases.only zoneBinding (.number (.int 5)) isOnlyHeader_zoneBinding rfl "X-Zone"
    (Text.sameAscii_refl _) ⟨by decide, by decide⟩
  have hsome : (headerValue .request "X-Zone" r).isSome := by rw [hvalue]; rfl
  exact ⟨r, hr, hsame, hsome, (hcases.isSome_iff _ _ hsame).mp hsome⟩

/-- The number that was given is found under the declared name, and a text under the other one. -/
theorem headerValue_ne_getZone :
    ∃ r, getZone.execute false zoneInputs = .ok r ∧ Text.sameAscii "X-Zone" "x-zone" ∧
      Formula.resolve (.string "$request.header.X-Zone") r = some (.number (.int 5)) ∧
      Formula.resolve (.string "$request.header.x-zone") r = some (.string "5") := by
  obtain ⟨r, hr⟩ := exists_execute_getZone
  have hvalue : valueOf zoneInputs zoneBinding = some (.number (.int 5)) := rfl
  refine ⟨r, hr, by decide, ?_, ?_⟩
  · exact isOnlyHeader_zoneBinding.headerValue_eq hvalue (Text.sameAscii_refl _) hr
      ⟨by decide, by decide⟩
  · have hexpressible : IsExpressible "x-zone" := ⟨by decide, by decide⟩
    refine (isOnlyHeader_zoneBinding.headerValue_eq hvalue (by decide) hr hexpressible).trans ?_
    rw [if_neg (by decide)]
    rfl

end Operation

end ApiCommand
