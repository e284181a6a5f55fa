import ApiCommand.Proofs.Dict
import ApiCommand.Proofs.Text.Split
import ApiCommand.Proofs.Text.WhiteSpace
import ApiCommand.Value.Decode

/-!
# Reading values from texts

A text that stands for a file is read in the same way whatever is asked for (`decode_of_file`), and
any other one by the primary type of the schema (`decode_of_text`). So what is there already never
decides whether a text can be read (`exists_decode_iff`). A text `key=value` for an object sets the
member of the key, and its value is read as if nothing was there (`decode_pair`). Of several texts
that are read one after another, an array takes each as an item (`decodeEach_of_array`), and other
types make no array of texts without a bracket in front (`decode_ne_array`).
-/

namespace ApiCommand

namespace Value

/-! ## Keys and values -/

/-- The text stands for what is in a file. -/
def namesFile (raw : String) : Bool :=
  raw.toList.head? == some '@' || raw.toList.head? == some '%'

/-- The key can stand in front of an equals sign without quotes: a text that begins with it is not
read in another way. -/
structure PlainKey (key : String) : Prop where
  no_equals : '=' ∉ key.toList
  unquoted : key.toList.head? ≠ some '"'
  not_file : namesFile key = false
  not_literal : opensWith '{' key = false

theorem toList_pair (key value : String) :
    (key ++ "=" ++ value).toList = key.toList ++ '=' :: value.toList := by
  rw [String.toList_append, String.toList_append, List.append_assoc]
  rfl

section PlainKey

variable {key : String} (h : PlainKey key) (value : String)

include h

/-- Such a pair does not stand for what is in a file. -/
theorem PlainKey.namesFile_pair : namesFile (key ++ "=" ++ value) = false := by
  have hfile := h.not_file
  unfold namesFile at hfile ⊢
  rw [toList_pair]
  cases hkey : key.toList with
  | nil => rfl
  | cons c cs =>
    rw [hkey] at hfile
    exact hfile

/-- Nor does it look like an object. -/
theorem PlainKey.opensWith_pair : opensWith '{' (key ++ "=" ++ value) = false := by
  have hliteral := h.not_literal
  have hequals : Unicode.isWhiteSpace '=' = false := by decide
  unfold opensWith Unicode.trimStart at hliteral ⊢
  rw [toList_pair, List.dropWhile_append]
  split
  next => simp [hequals]
  next hne =>
    obtain ⟨c, cs, hdrop⟩ := List.exists_cons_of_ne_nil (mt List.isEmpty_iff.mpr hne)
    rw [hdrop] at hliteral ⊢
    exact hliteral

/-- The key and the value are found again, unless the key is empty. -/
theorem PlainKey.splitPair_pair :
    splitPair (key ++ "=" ++ value) = if key = "" then none else some (key, value) := by
  -- The first equals sign is the one behind the key.
  have hcut : Text.cut '=' (key ++ "=" ++ value).toList = some (key.toList, value.toList) := by
    rw [toList_pair, Text.cut_append h.no_equals]
  unfold splitPair
  split
  -- Quotes in front would be those of the key, which has none.
  next rest hrest =>
    rw [toList_pair] at hrest
    cases hkey : key.toList with
    | nil => simp [hkey] at hrest
    | cons c cs =>
      rw [hkey, List.cons_append, List.cons.injEq] at hrest
      exact absurd (by rw [hkey, hrest.1]; rfl) h.unquoted
  next =>
    rw [hcut]
    cases hkey : key.toList with
    | nil => rw [if_pos (String.toList_eq_nil_iff.mp hkey)]
    | cons c cs =>
      have hne : key ≠ "" := by
        rintro rfl
        cases hkey
      dsimp only
      rw [if_neg hne, ← hkey, String.ofList_toList, String.ofList_toList]

end PlainKey

/-! ## JSON texts for arrays -/

/-- The blanks of JSON are white space. -/
theorem isWhiteSpace_of_isBlank {c : Char} (h : Json.isBlank c) : Unicode.isWhiteSpace c := by
  simp only [Json.isBlank, Bool.or_eq_true, beq_iff_eq] at h
  rcases h with ((rfl | rfl) | rfl) | rfl <;> decide

/-- What JSON takes for blank is white space. -/
theorem trimStart_skipBlanks (cs : List Char) :
    Unicode.trimStart (Json.skipBlanks cs) = Unicode.trimStart cs := by
  induction cs with
  | nil => rfl
  | cons c cs ih =>
    rw [Json.skipBlanks, List.dropWhile_cons]
    split
    next hblank =>
      rw [Unicode.trimStart, Unicode.trimStart,
        List.dropWhile_cons_of_pos (isWhiteSpace_of_isBlank hblank)]
      exact ih
    next => rfl

/-- An array is read from a text with a bracket in front. -/
theorem head?_of_readValue {fuel depth : Nat} {cs rest : List Char} {items : List Json}
    (h : Json.readValue fuel depth cs = some (.array items, rest)) :
    (Json.skipBlanks cs).head? = some '[' := by
  unfold Json.readValue at h
  split at h
  next => cases h
  split at h
  next => cases h
  next => cases h
  next => cases h
  next =>
    obtain ⟨text, -, h⟩ := Option.bind_eq_some_iff.mp h
    cases h
  -- Of all first characters, only the bracket leads to an array.
  next heq => rw [heq, List.head?_cons]
  next =>
    split at h
    next => cases h
    split at h
    next => cases h
    next =>
      obtain ⟨members, -, h⟩ := Option.bind_eq_some_iff.mp h
      cases h
  next =>
    obtain ⟨n, -, h⟩ := Option.bind_eq_some_iff.mp h
    cases h

/-- JSON for an array has a bracket in front. -/
theorem opensWith_of_parse? {raw : String} {items : List Json}
    (h : Json.parse? raw = some (.array items)) : opensWith '[' raw := by
  obtain ⟨⟨v, rest⟩, hread, h⟩ := Option.bind_eq_some_iff.mp h
  obtain ⟨-, h⟩ := Option.ite_none_right_eq_some.mp h
  cases h
  obtain ⟨more, hmore⟩ := List.head?_eq_some_iff.mp (head?_of_readValue hread)
  rw [opensWith, ← trimStart_skipBlanks, hmore, Unicode.trimStart,
    List.dropWhile_cons_of_neg (by rw [Unicode.isWhiteSpace_bracket]; decide)]
  rfl

/-- A text that does not start like an array is not read as one. -/
theorem scalar_ne_array {type : Option String} {raw : String} (h : opensWith '[' raw = false)
    (items : List Json) : scalar type raw ≠ .ok (.array items) := by
  intro hread
  simp only [scalar] at hread
  split at hread
  next => cases hread
  next => split at hread <;> cases hread
  next => split at hread <;> cases hread
  next => split at hread <;> cases hread
  next => split at hread <;> cases hread
  next =>
    cases hparse : Json.parse? raw with
    | none => simp [Json.parseLoose, hparse] at hread
    | some v =>
      rw [Json.parseLoose, hparse] at hread
      cases hread
      rw [opensWith_of_parse? hparse] at h
      cases h

end Value

namespace Schema

open Value

variable (host : Host) (s : Schema) (current : Option Json) {raw : String}

/-! ## What decides how a text is read -/

/-- A text that stands for a file is read in the same way by all schemas. -/
theorem decode_of_file (h : namesFile raw) (t : Schema) (other : Option Json) :
    s.decode host current raw = t.decode host other raw := by
  simp only [namesFile, Bool.or_eq_true, beq_iff_eq] at h
  cases hraw : raw.toList with
  | nil => simp [hraw] at h
  | cons c path =>
    simp only [hraw, List.head?_cons, Option.some.injEq] at h
    cases s
    cases t
    rcases h with rfl | rfl <;> simp only [decode, hraw]

/-- A text that does not stand for a file is read by the primary type of the schema. -/
theorem decode_of_text (h : namesFile raw = false) :
    s.decode host current raw =
      if s.primaryType? = some "array" then
        if opensWith '[' raw then arrayLiteral raw
        else (decodeItem host s.items raw).map fun item => .array (currentItems current ++ [item])
      else if s.primaryType? = some "object" then
        if opensWith '{' raw then objectLiteral raw
        else
          match splitPair raw with
          | none => .error (.expected "JSON object or key=value" raw)
          | some (key, text) => (decodeProperty host s.properties key text).map fun item =>
              .object (Dict.insert (currentMembers current) key item)
      else scalar s.primaryType? raw := by
  cases s
  rw [decode]
  split
  next path hpath =>
    simp [namesFile, hpath] at h
  next path hpath =>
    simp [namesFile, hpath] at h
  next => rfl

/-! ## What is there already -/

/-- Whether a text can be read does not depend on what is there already. -/
theorem exists_decode_iff (other : Option Json) :
    (∃ v, s.decode host current raw = .ok v) ↔ ∃ v, s.decode host other raw = .ok v := by
  -- What is there decides on the value, but not on whether there is one.
  cases hfile : namesFile raw with
  | true => rw [decode_of_file host s current hfile s other]
  | false =>
    rw [decode_of_text host s current hfile, decode_of_text host s other hfile]
    split
    next =>
      -- A text that is no literal becomes one item more, or a member.
      split
      next => rfl
      next => cases decodeItem host s.items raw <;> simp [Except.map]
    next =>
      split
      next =>
        split
        next => rfl
        next =>
          cases splitPair raw with
          | none => rfl
          | some pair =>
            obtain ⟨key, text⟩ := pair
            dsimp only
            cases decodeProperty host s.properties key text <;> simp [Except.map]
      next => rfl

/-- Only arrays and objects look at what is there already. -/
theorem decode_congr (harray : s.primaryType? ≠ some "array")
    (hobject : s.primaryType? ≠ some "object") (other : Option Json) :
    s.decode host current raw = s.decode host other raw := by
  cases hfile : namesFile raw with
  | true => exact decode_of_file host s current hfile s other
  | false =>
    simp only [decode_of_text host s _ hfile, if_neg harray, if_neg hobject]

/-! ## Members of objects -/

/-- A property is looked up and reads the text by its own schema. -/
theorem decodeProperty_eq (properties : List (String × Schema)) (key raw : String) :
    decodeProperty host properties key raw =
      match Dict.get? properties key with
      | some t => t.decode host none raw
      | none => .ok (Json.parseLoose raw) := by
  induction properties with
  | nil => rw [decodeProperty, Dict.get?_nil]
  | cons e rest ih =>
    rw [decodeProperty, Dict.get?_cons]
    split
    next => rfl
    next => exact ih

section Pair

variable (hobject : s.primaryType? = some "object") {key : String} (hkey : PlainKey key)
  (raw : String)

include hobject hkey

/-- A text `key=value` for an object sets the member of the key. The value is read as the schema of
the property asks, as if nothing was there. -/
theorem decode_pair (hne : key ≠ "") :
    s.decode host current (key ++ "=" ++ raw) =
      (decodeProperty host s.properties key raw).map fun item =>
        .object (Dict.insert (currentMembers current) key item) := by
  have harray : s.primaryType? ≠ some "array" := by simp [hobject]
  rw [decode_of_text host s current (hkey.namesFile_pair raw), if_neg harray, if_pos hobject,
    hkey.opensWith_pair, hkey.splitPair_pair, if_neg hne]
  rfl

/-- A text `=value` sets no member. -/
theorem decode_pair_of_empty (hempty : key = "") :
    s.decode host current (key ++ "=" ++ raw) =
      .error (.expected "JSON object or key=value" (key ++ "=" ++ raw)) := by
  have harray : s.primaryType? ≠ some "array" := by simp [hobject]
  rw [decode_of_text host s current (hkey.namesFile_pair raw), if_neg harray, if_pos hobject,
    hkey.opensWith_pair, hkey.splitPair_pair, if_pos hempty]
  rfl

end Pair

/-! ## Arrays -/

/-- A schema that is not primarily for arrays makes no array of a text without a bracket in
front. -/
theorem decode_ne_array (harray : s.primaryType? ≠ some "array") (hfile : namesFile raw = false)
    (hliteral : opensWith '[' raw = false) (items : List Json) :
    s.decode host current raw ≠ .ok (.array items) := by
  intro h
  rw [decode_of_text host s current hfile, if_neg harray] at h
  split at h
  next =>
    split at h
    next =>
      unfold objectLiteral at h
      split at h <;> cases h
    next =>
      split at h
      next => cases h
      next key text _ =>
        cases hitem : decodeProperty host s.properties key text <;> simp [hitem, Except.map] at h
  next => exact scalar_ne_array hliteral items h

/-! ## Texts one after another -/

/-- Reads texts one after another. What the earlier ones stand for is there when a later one is
read. -/
def decodeEach (host : Host) (s : Schema) (current : Option Json) (texts : List String) :
    Except DecodeFault (Option Json) :=
  match texts with
  | [] => .ok current
  | raw :: rest => (s.decode host current raw).bind fun v => decodeEach host s (some v) rest

/-- All texts can be read one after another exactly if each can be read where nothing is. -/
theorem exists_decodeEach_iff (texts : List String) :
    (∃ v, s.decodeEach host current texts = .ok v) ↔
      ∀ raw ∈ texts, ∃ v, s.decode host none raw = .ok v := by
  induction texts generalizing current with
  | nil => simp [decodeEach]
  | cons raw rest ih =>
    rw [List.forall_mem_cons, ← exists_decode_iff host s current none, decodeEach]
    cases s.decode host current raw with
    | error fault => simp [Except.bind]
    | ok v => simp [Except.bind, ih]

/-- The last text is read like any other, with something there or not. -/
theorem exists_decode_of_decodeEach {before : List String} {last : String} {v : Option Json}
    (h : s.decodeEach host current (before ++ [last]) = .ok v) :
    ∃ there w, s.decode host there last = .ok w ∧ v = some w := by
  induction before generalizing current with
  | nil =>
    rw [List.nil_append, decodeEach] at h
    cases hdecode : s.decode host current last with
    | error fault => simp [hdecode, Except.bind] at h
    | ok w =>
      rw [hdecode] at h
      cases h
      exact ⟨current, w, hdecode, rfl⟩
  | cons raw rest ih =>
    rw [List.cons_append, decodeEach] at h
    cases hdecode : s.decode host current raw with
    | error fault => simp [hdecode, Except.bind] at h
    | ok w =>
      rw [hdecode] at h
      exact ih (some w) h

/-- A text for an array is one of its items, unless it stands for a file or for a whole array. -/
theorem decode_item (harray : s.primaryType? = some "array") (hfile : namesFile raw = false)
    (hliteral : opensWith '[' raw = false) :
    s.decode host current raw = (decodeItem host s.items raw).map fun item =>
      .array (currentItems current ++ [item]) := by
  rw [decode_of_text host s current hfile, if_pos harray, hliteral]
  rfl

/-- Texts for an array are its items in their order, behind those that are there. -/
theorem decodeEach_of_array (harray : s.primaryType? = some "array") {texts : List String}
    (htexts : ∀ raw ∈ texts, namesFile raw = false ∧ opensWith '[' raw = false ∧
      ∃ item, decodeItem host s.items raw = .ok item) :
    ∃ items, texts.map (decodeItem host s.items) = items.map Except.ok ∧
      s.decodeEach host current texts =
        .ok (if texts = [] then current else some (.array (currentItems current ++ items))) := by
  induction texts generalizing current with
  | nil => exact ⟨[], rfl, rfl⟩
  | cons raw rest ih =>
    obtain ⟨⟨hfile, hliteral, item, hitem⟩, hrest⟩ := List.forall_mem_cons.mp htexts
    obtain ⟨items, hitems, heach⟩ := ih (some (.array (currentItems current ++ [item]))) hrest
    refine ⟨item :: items, by rw [List.map_cons, List.map_cons, hitem, hitems], ?_⟩
    rw [decodeEach, decode_item host s current harray hfile hliteral, hitem]
    refine heach.trans ?_
    rw [if_neg (List.cons_ne_nil _ _)]
    -- The text in front has made an array, whether or not there are more.
    by_cases hnil : rest = []
    · subst hnil
      rw [List.map_eq_nil_iff.mp hitems.symm, if_pos rfl]
    · rw [if_neg hnil, currentItems, List.append_assoc]
      rfl

end Schema

end ApiCommand
