import ApiCommand.Proofs.Catalog.Request
import ApiCommand.Proofs.Link.Expression
import ApiCommand.Proofs.Text.WhiteSpace

/-!
# Cookies read back

The cookies of a request are written behind each other into one header, and nothing in their names
and values is encoded. Reading the header gives what reading each cookie for itself gives
(`cookiePairs_intercalate`). A cookie that is read for itself is the one that was written only if
its name and value are free of separators and of white space at the ends, so the header is read as
the cookies that it was made of if and only if all of them are like this (`cookies_of_request`). A
value with a semicolon in it brings in another cookie (`cookiePairs_ne_getMe`).
-/

namespace ApiCommand

/-! ## Single cookies -/

/-- A cookie as it is written. -/
def cookieText (pair : String × String) : String := pair.1 ++ "=" ++ pair.2

/-- A cookie without separators, other than the one between name and value, and without white space
at its ends. -/
structure IsPlainCookie (pair : String × String) : Prop where
  equals_notMem_name : '=' ∉ pair.1.toList
  semicolon_notMem_name : ';' ∉ pair.1.toList
  semicolon_notMem_value : ';' ∉ pair.2.toList
  head?_name : ∀ c ∈ pair.1.toList.head?, Unicode.isWhiteSpace c = false
  getLast?_value : ∀ c ∈ pair.2.toList.getLast?, Unicode.isWhiteSpace c = false

namespace Expression

/-- The pair that is read from a piece of a header. -/
def cookiePair? (piece : List Char) : Option (List Char × List Char) :=
  Text.cut '=' (Unicode.trim piece)

/-- Cookies are read piece by piece between semicolons. -/
theorem cookiePairs_eq (header : String) :
    cookiePairs header = (header.toList.splitOn ';').filterMap fun piece =>
      (cookiePair? piece).map fun parts => (String.ofList parts.1, String.ofList parts.2) := by
  simp [cookiePairs, Text.pieces, List.filterMap_map, Text.cutText, Unicode.trimText,
    cookiePair?]

theorem toList_cookieText (pair : String × String) :
    (cookieText pair).toList = pair.1.toList ++ '=' :: pair.2.toList := by
  simp [cookieText]

/-- Each cookie that is written is read as one cookie at least. -/
theorem cookiePairs_cookieText_ne_nil (pair : String × String) :
    cookiePairs (cookieText pair) ≠ [] := by
  have hequals : '=' ∈ (cookieText pair).toList := by
    rw [toList_cookieText]
    simp
  have hsep : '=' ≠ ';' := by decide
  obtain ⟨piece, hpiece, hmem⟩ := Text.exists_mem_splitOn hequals hsep
  -- The equals sign is not dropped with the white space around it.
  have htrim : '=' ∈ Unicode.trim piece := Unicode.mem_trim hmem (by decide)
  obtain ⟨parts, hparts⟩ := Option.ne_none_iff_exists'.mp
    (fun hnone : cookiePair? piece = none => Text.cut_eq_none_iff.mp hnone htrim)
  rw [cookiePairs_eq]
  exact List.ne_nil_of_mem (List.mem_filterMap.mpr ⟨piece, hpiece, by rw [hparts]; rfl⟩)

/-- A cookie keeps its text if there is no white space at its ends. -/
theorem trim_cookieText_eq_self_iff (pair : String × String) :
    Unicode.trim (cookieText pair).toList = (cookieText pair).toList ↔
      (∀ c ∈ pair.1.toList.head?, Unicode.isWhiteSpace c = false) ∧
        ∀ c ∈ pair.2.toList.getLast?, Unicode.isWhiteSpace c = false := by
  have hequals : Unicode.isWhiteSpace '=' = false := by decide
  rw [Unicode.trim_eq_self_iff, toList_cookieText, List.head?_append, List.getLast?_append,
    List.getLast?_cons]
  cases pair.1.toList.head? <;> cases pair.2.toList.getLast? <;> simp [hequals]

/-- A cookie is read as itself and nothing else if and only if it is plain. -/
theorem cookiePairs_cookieText_iff (pair : String × String) :
    cookiePairs (cookieText pair) = [pair] ↔ IsPlainCookie pair := by
  rw [cookiePairs_eq]
  constructor
  · intro h
    obtain ⟨piece, hpiece, hread⟩ := List.mem_filterMap.mp (h ▸ List.mem_singleton_self pair)
    obtain ⟨⟨name, value⟩, hcut, rfl⟩ := Option.map_eq_some_iff.mp hread
    obtain ⟨htrim, hname⟩ := Text.cut_eq_some_iff.mp hcut
    obtain ⟨hsublist, hsemicolon⟩ := Text.sublist_of_mem_splitOn hpiece
    -- The piece is all of the text, since there is none left besides what was read from it.
    have htext : (cookieText (String.ofList name, String.ofList value)).toList =
        Unicode.trim piece := by
      rw [toList_cookieText, htrim, String.toList_ofList, String.toList_ofList]
    have hwhole := hsublist.eq_of_length_le (htext ▸ (Unicode.trim_sublist piece).length_le)
    rw [hwhole] at htext hsemicolon
    obtain ⟨hhead, hlast⟩ := (trim_cookieText_eq_self_iff _).mp htext.symm
    rw [toList_cookieText, List.mem_append, List.mem_cons, not_or, not_or] at hsemicolon
    exact
      { equals_notMem_name := by simpa using hname
        semicolon_notMem_name := hsemicolon.1
        semicolon_notMem_value := hsemicolon.2.2
        head?_name := hhead
        getLast?_value := hlast }
  · intro h
    have hsemicolon : ';' ∉ (cookieText pair).toList := by
      rw [toList_cookieText, List.mem_append, List.mem_cons, not_or, not_or]
      exact ⟨h.semicolon_notMem_name, by decide, h.semicolon_notMem_value⟩
    have htrim := (trim_cookieText_eq_self_iff pair).mpr ⟨h.head?_name, h.getLast?_value⟩
    rw [List.splitOn_eq_singleton hsemicolon, List.filterMap_cons, cookiePair?, htrim,
      toList_cookieText, Text.cut_append h.equals_notMem_name]
    simp

/-! ## Headers -/

/-- White space in front of a header makes no difference. -/
theorem cookiePairs_space_append (header : String) :
    cookiePairs (" " ++ header) = cookiePairs header := by
  have hspace : Unicode.isWhiteSpace ' ' := by decide
  obtain ⟨first, rest, hsplit⟩ :=
    List.exists_cons_of_ne_nil (List.splitOn_ne_nil ';' header.toList)
  have hchars : (" " ++ header).toList = ' ' :: header.toList := by simp
  rw [cookiePairs_eq, cookiePairs_eq, hchars, List.splitOn_cons_eq_if_modifyHead,
    if_neg (by decide), hsplit, List.modifyHead_cons, List.filterMap_cons, List.filterMap_cons,
    cookiePair?, Unicode.trim_cons_of_isWhiteSpace hspace, ← cookiePair?]

/-- The cookies of two headers are read one after the other from both of them joined. -/
theorem cookiePairs_append (header rest : String) :
    cookiePairs (header ++ "; " ++ rest) = cookiePairs header ++ cookiePairs rest := by
  have hchars : (header ++ "; " ++ rest).toList = header.toList ++ ';' :: (" " ++ rest).toList := by
    simp
  -- The space behind the semicolon stays with the rest, where it makes no difference.
  rw [← cookiePairs_space_append rest, cookiePairs_eq, hchars, List.splitOn_append_cons_self,
    List.filterMap_append, ← cookiePairs_eq, ← cookiePairs_eq]

/-- A header of cookies is read as what is read from each of them. -/
theorem cookiePairs_intercalate (texts : List String) :
    cookiePairs (String.intercalate "; " texts) = texts.flatMap cookiePairs := by
  induction texts with
  | nil => decide +kernel
  | cons text texts ih =>
    cases texts with
    | nil => simp
    | cons next texts =>
      rw [String.intercalate_cons_cons, cookiePairs_append, ih, ← List.flatMap_cons]

/-- If nothing in a list maps to nothing, then what all items map to is the list again only if each
item maps to itself. -/
theorem flatMap_eq_self_iff {α : Type} {f : α → List α} {items : List α} (hne : ∀ x, f x ≠ []) :
    items.flatMap f = items ↔ ∀ x ∈ items, f x = [x] := by
  have hlength : ∀ rest : List α, rest.length ≤ (rest.flatMap f).length := by
    intro rest
    induction rest with
    | nil => exact Nat.le_refl 0
    | cons x rest ih =>
      have hpos := List.length_pos_iff.mpr (hne x)
      rw [List.flatMap_cons, List.length_append, List.length_cons]
      omega
  induction items with
  | nil => simp
  | cons x items ih =>
    rw [List.flatMap_cons, List.forall_mem_cons]
    constructor
    · intro h
      -- The image of the first item has no room for a second one.
      obtain ⟨y, ys, hy⟩ := List.exists_cons_of_ne_nil (hne x)
      rw [hy, List.cons_append, List.cons.injEq] at h
      have hys : ys = [] := by
        have hsum := congrArg List.length h.2
        rw [List.length_append] at hsum
        have hrest := hlength items
        exact List.eq_nil_of_length_eq_zero (by omega)
      subst hys
      exact ⟨by rw [hy, h.1], ih.mp h.2⟩
    · rintro ⟨hx, hrest⟩
      rw [hx, ih.mpr hrest, List.singleton_append]

/-- A header of cookies is read as the cookies that it was made of if and only if all of them are
plain. -/
theorem cookiePairs_intercalate_eq_iff (pairs : List (String × String)) :
    cookiePairs (String.intercalate "; " (pairs.map cookieText)) = pairs ↔
      ∀ pair ∈ pairs, IsPlainCookie pair := by
  simp only [cookiePairs_intercalate, List.flatMap_map,
    flatMap_eq_self_iff cookiePairs_cookieText_ne_nil, cookiePairs_cookieText_iff]

end Expression

/-! ## Requests -/

namespace Operation

variable {op : Operation} {inputs : Inputs} {request : Request}

/-- The names and texts of the cookies that have a value, binding by binding. -/
def cookieEntries (op : Operation) (inputs : Inputs) : List (String × String) :=
  op.bindings.filterMap fun b =>
    if b.location = .cookie then
      (Dict.get? inputs.configs b.externalName).map fun v => (b.wireName, v.plainText)
    else none

/-- The cookies of a request are those of its inputs, binding by binding. -/
theorem cookies_eq_cookieEntries (op : Operation) (inputs : Inputs) :
    op.cookies inputs = op.cookieEntries inputs := by
  unfold cookies given cookieEntries
  rw [List.map_filterMap, List.filterMap_filter]
  refine List.filterMap_congr fun b _ => ?_
  by_cases hcookie : b.location = .cookie
  · have hat : valueOf inputs b = Dict.get? inputs.configs b.externalName := by
      rw [valueOf, hcookie]
      rfl
    simp [hcookie, hat, Function.comp_def]
  · simp [hcookie]

/-- The cookies are in a header of their own, which no header parameter replaces. -/
theorem get?_headers_cookie (h : op.cookieEntries inputs ≠ []) :
    Dict.get? (op.headers inputs) "Cookie" =
      some (String.intercalate "; " ((op.cookieEntries inputs).map cookieText)) := by
  have hwritten : (fun e : String × String => e.1 ++ "=" ++ e.2) = cookieText := rfl
  unfold headers
  simp only [cookies_eq_cookieEntries, List.isEmpty_iff, if_neg h, hwritten]
  split <;> simp [Dict.get?_insert]

/-- The header of a request with cookies is read as what each of them is read as, one after another.
It is read as the cookies that it was made of if and only if all of these are plain. -/
theorem cookies_of_request (h : op.request inputs = .ok request)
    (hcookies : op.cookieEntries inputs ≠ []) :
    ∃ header, Dict.get? request.headers "Cookie" = some header ∧
      Expression.cookiePairs header = (op.cookieEntries inputs).flatMap
        (fun pair => Expression.cookiePairs (cookieText pair)) ∧
      (Expression.cookiePairs header = op.cookieEntries inputs ↔
        ∀ pair ∈ op.cookieEntries inputs, IsPlainCookie pair) := by
  obtain ⟨-, rfl⟩ := request_eq_ok_iff.mp h
  refine ⟨_, get?_headers_cookie hcookies, ?_, Expression.cookiePairs_intercalate_eq_iff _⟩
  rw [Expression.cookiePairs_intercalate, List.flatMap_map]

/-- An operation with two cookies. -/
def getMe : Operation :=
  .ofSpec "x-relay" "https://api" none
    { id := "getMe", method := "get", path := "/me"
      parameters := [
        { name := "session", location := .cookie, schema := .string },
        { name := "theme", location := .cookie, schema := .integer }] }

/-- Cookies with an equals sign and white space inside of a value. -/
def plainCookies : Inputs :=
  { configs := [("session", .string "a=b c"), ("theme", .number (.int 5))] }

/-- Equals signs and inner white space of a value do not disturb the reading. -/
theorem cookies_of_request_getMe :
    ∃ request header, getMe.request plainCookies = .ok request ∧
      Dict.get? request.headers "Cookie" = some header ∧
      Expression.cookiePairs header = [("session", "a=b c"), ("theme", "5")] := by
  have hrequest := request_eq_ok_iff.mpr
    ⟨(by decide +kernel : getMe.missingPath? plainCookies = none), rfl⟩
  have hentries : getMe.cookieEntries plainCookies = [("session", "a=b c"), ("theme", "5")] := by
    decide +kernel
  obtain ⟨header, hheader, -, hread⟩ :=
    cookies_of_request hrequest (hentries ▸ List.cons_ne_nil _ _)
  rw [hentries] at hread
  refine ⟨_, header, hrequest, hheader, hread.mpr fun pair hpair => ?_⟩
  simp only [List.mem_cons, List.not_mem_nil, or_false] at hpair
  rcases hpair with rfl | rfl
  · refine ⟨by decide, by decide, by decide, ?_, ?_⟩ <;> rintro c ⟨⟩ <;> decide
  · refine ⟨by decide, by decide, by decide, ?_, ?_⟩ <;> rintro c ⟨⟩ <;> decide

/-- Cookies of which one has a semicolon in its value. -/
def smugglingCookies : Inputs :=
  { configs := [("session", .string "s; admin=1"), ("theme", .number (.int 5))] }

/-- A semicolon in the value of one cookie brings in another one, which an expression finds. -/
theorem cookiePairs_ne_getMe :
    ∃ request header, getMe.request smugglingCookies = .ok request ∧
      Dict.get? request.headers "Cookie" = some header ∧
      getMe.cookieEntries smugglingCookies = [("session", "s; admin=1"), ("theme", "5")] ∧
      Expression.cookiePairs header = [("session", "s"), ("admin", "1"), ("theme", "5")] ∧
      ∀ r : Result, r.request = request → r.source.bindings = getMe.bindings →
        Formula.resolve (.string "$request.cookie.admin") r = some (.string "1") := by
  have hheader : Text.findHeader (getMe.headers smugglingCookies) "Cookie" =
      some "session=s; admin=1; theme=5" := by decide +kernel
  have hread : Expression.cookiePairs "session=s; admin=1; theme=5" =
      [("session", "s"), ("admin", "1"), ("theme", "5")] := by decide +kernel
  refine ⟨_, _, request_eq_ok_iff.mpr ⟨by decide +kernel, rfl⟩, by decide +kernel,
    by decide +kernel, hread, fun r hrequest hbindings => ?_⟩
  -- No binding is for a cookie with this name, so the value is read from the header.
  have hsource : r.source.valueAt .cookie "admin" = none := by
    rw [Source.valueAt, hbindings]
    rfl
  have htext : "$request.cookie.admin" =
      Expression.text (.parameter .request .cookie "admin") := by decide +kernel
  rw [htext, Formula.resolve_text_parameter (.inl rfl) (by decide) (by decide)]
  show Expression.requestValue? r .cookie "admin" = _
  rw [Expression.requestValue?, hsource, Option.none_or, hrequest, Expression.sentValue?, hheader,
    Option.bind_some, hread]
  rfl

end Operation

end ApiCommand
