import ApiCommand.Proofs.Flag.Resolution
import ApiCommand.Proofs.Schema.Conformance
import ApiCommand.Proofs.Value.Rendering

/-!
# Values without floating-point numbers

Only floating-point numbers can differ from what their texts are read as, and only values that are
nested too deep have texts that are not read at all. So the text of any other array or object
replaces what a flag for arrays or objects holds by this array or object, and a flag without a type
takes everything but strings in this way (`decode_plainText_of_integral`).
-/

namespace ApiCommand

namespace Json

/-- Every number in the value is an integer, which has 64 bits with or without a sign. -/
inductive Integral : Json → Prop
  | null : Integral null
  | bool (b : Bool) : Integral (bool b)
  | number {n : Int} (hlow : -2 ^ 63 ≤ n) (hhigh : n < 2 ^ 64) : Integral (number (.int n))
  | string (text : String) : Integral (string text)
  | array {items : List Json} (hitems : ∀ item ∈ items, Integral item) : Integral (array items)
  | object {members : List (String × Json)} (hmembers : ∀ e ∈ members, Integral e.2) :
      Integral (object members)

/-! ## Nesting -/

mutual

/-- How many containers of the value are nested into each other at most. -/
def depth (v : Json) : Nat :=
  match v with
  | array items => itemsDepth items + 1
  | object members => membersDepth members + 1
  | _ => 0

/-- The greatest depth among the items of an array. -/
def itemsDepth (items : List Json) : Nat :=
  match items with
  | [] => 0
  | item :: rest => max item.depth (itemsDepth rest)

/-- The greatest depth among the members of an object. -/
def membersDepth (members : List (String × Json)) : Nat :=
  match members with
  | [] => 0
  | (_, v) :: rest => max v.depth (membersDepth rest)

end

/-- No item is nested deeper than the deepest one. -/
theorem depth_le_itemsDepth {items : List Json} {item : Json} (h : item ∈ items) :
    item.depth ≤ itemsDepth items := by
  induction items with
  | nil => cases h
  | cons first rest ih =>
    rw [itemsDepth]
    rcases List.mem_cons.mp h with rfl | hrest
    · exact Nat.le_max_left _ _
    · exact (ih hrest).trans (Nat.le_max_right _ _)

/-- No member is nested deeper than the deepest one. -/
theorem depth_le_membersDepth {members : List (String × Json)} {e : String × Json}
    (h : e ∈ members) : e.2.depth ≤ membersDepth members := by
  induction members with
  | nil => cases h
  | cons first rest ih =>
    rw [membersDepth]
    rcases List.mem_cons.mp h with rfl | hrest
    · exact Nat.le_max_left _ _
    · exact (ih hrest).trans (Nat.le_max_right _ _)

/-- Nothing stands in the way of reading back a value without floating-point numbers that is not
nested too deep. -/
theorem readable_of_integral {v : Json} (hordered : v.Ordered) (hintegral : v.Integral)
    {depth : Nat} (hdepth : v.depth ≤ depth) : Readable depth v := by
  -- Each container uses up one level of the depth that is left.
  induction v using inductionOnParts generalizing depth with
  | leaf v hleaf =>
    cases hintegral with
    | null => exact .null
    | bool b => exact .bool b
    | number hlow hhigh => exact .number ⟨hlow, hhigh⟩
    | string text => exact .string text
    | array => exact hleaf.elim
    | object => exact hleaf.elim
  | array items ih =>
    rw [Json.depth] at hdepth
    obtain ⟨depth, rfl⟩ : ∃ n, depth = n + 1 := ⟨depth - 1, by omega⟩
    cases hintegral with
    | array hintegral =>
      cases hordered with
      | leaf hleaf => exact hleaf.elim
      | array hordered =>
        refine .array fun item hitem =>
          ih item hitem (hordered item hitem) (hintegral item hitem) ?_
        have hle := depth_le_itemsDepth hitem
        omega
  | object members ih =>
    rw [Json.depth] at hdepth
    obtain ⟨depth, rfl⟩ : ∃ n, depth = n + 1 := ⟨depth - 1, by omega⟩
    cases hintegral with
    | object hintegral =>
      cases hordered with
      | leaf hleaf => exact hleaf.elim
      | object hsorted hordered =>
        refine .object hsorted fun e he => ih e he (hordered e he) (hintegral e he) ?_
        have hle := depth_le_membersDepth he
        omega

/-! ## Texts -/

/-- What is written begins with a bracket, a brace, a letter, a digit or a minus, unless it is a
string. So it does not stand for a file. -/
theorem namesFile_plainText {depth : Nat} {v : Json} (hkind : v.kind ≠ .string)
    (h : Readable depth v) : Value.namesFile v.plainText = false := by
  -- Only a string is written without quotes; other values are written as JSON.
  have hplain : v.plainText.toList = writeOnto v [] := by
    cases v with
    | string => exact absurd rfl hkind
    | _ => simp [plainText, text]
  rw [Value.namesFile, hplain]
  cases h with
  | null => rfl
  | bool b => cases b <;> rfl
  | number hread =>
    -- A number starts with a sign or a digit.
    obtain ⟨c, more, heq, hc⟩ := head_of_readNumber (readNumber_numberChars hread)
    rw [writeOnto, heq]
    have hne : c ≠ '@' ∧ c ≠ '%' := by
      constructor <;> (rintro rfl; exact absurd hc (by decide))
    simp [hne]
  | string text => exact absurd rfl hkind
  | @array _ items => cases items <;> rfl
  | @object _ members =>
    rcases members with _ | ⟨⟨k, x⟩, xs⟩
    · rfl
    · rw [writeOnto]
      rfl

end Json

namespace Schema

open Json

/-- A value without floating-point numbers and with at most 127 levels of containers is read from
its text whatever was there before: an object by a schema of objects, an array by a schema of
arrays, and anything but a string without a type. A string that does not stand for a file is read
from its text by a schema of strings. -/
theorem decode_plainText_of_integral (host : Host) (s : Schema) (current : Option Json) {v : Json}
    (hordered : v.Ordered) (hintegral : v.Integral) (hdepth : v.depth ≤ 127) :
    (v.kind = .object ∧ s.primaryType? = some "object" ∨
        v.kind = .array ∧ s.primaryType? = some "array" ∨
        s.types = [] ∧ v.kind ≠ .string →
      s.decode host current v.plainText = .ok v) ∧
    ∀ text, v = .string text → Value.namesFile text = false → s.primaryType? = some "string" →
      s.decode host current v.plainText = .ok v := by
  have hreadable : Readable maxDepth v := readable_of_integral hordered hintegral hdepth
  constructor
  · intro h
    -- None of the cases is that of a string, whose text could be the name of a file.
    have hkind : v.kind ≠ .string := by
      rcases h with ⟨hkind, -⟩ | ⟨hkind, -⟩ | ⟨-, hkind⟩
      · rw [hkind]; decide
      · rw [hkind]; decide
      · exact hkind
    suffices htakes : s.Takes v from
      decode_plainText host htakes (namesFile_plainText hkind hreadable) current
    unfold Takes
    -- In all three cases, the type has the text read as JSON.
    rcases h with ⟨hkind, htype⟩ | ⟨hkind, htype⟩ | ⟨htypes, hkind⟩
    · rw [htype]
      cases v <;> cases hkind
      exact ⟨⟨_, rfl⟩, hreadable⟩
    · rw [htype]
      cases v <;> cases hkind
      exact ⟨⟨_, rfl⟩, hreadable⟩
    · have hnone : s.primaryType? = none := by simp [primaryType?, htypes]
      rw [hnone]
      exact .inr ⟨hkind, hreadable⟩
  · -- A string is taken as it is written.
    rintro text rfl hfile htype
    have htakes : s.Takes (.string text) := by
      unfold Takes
      rw [htype]
      exact ⟨text, rfl⟩
    exact decode_plainText host htakes hfile current

/-- The size and the tags of a volume. -/
def volumeSize : Json :=
  .object [("size", .number (.int (2 ^ 64 - 1))), ("tags", .array [.string "a=b", .null])]

/-- An object with the greatest unsigned integer replaces what was there. -/
theorem decode_plainText_of_integral_volumeSize :
    volumeSize.Ordered ∧ volumeSize.Integral ∧ volumeSize.depth ≤ 127 ∧
      volumeSize.kind = .object ∧ emptyObject.primaryType? = some "object" ∧
      emptyObject.decode Host.bare (some (.object [("name", .null)])) volumeSize.plainText =
        .ok volumeSize := by
  have hordered : volumeSize.Ordered := by
    have htags : Json.Ordered (.array [.string "a=b", .null]) := by
      refine .array fun item hitem => .leaf ?_
      rcases List.mem_pair.mp hitem with rfl | rfl <;> trivial
    refine .object ?_ fun e he => ?_
    · unfold Dict.Sorted
      decide
    · rcases List.mem_pair.mp he with rfl | rfl
      · exact .leaf trivial
      · exact htags
  have hintegral : volumeSize.Integral := by
    have htags : Json.Integral (.array [.string "a=b", .null]) := by
      refine .array fun item hitem => ?_
      rcases List.mem_pair.mp hitem with rfl | rfl
      · exact .string _
      · exact .null
    refine .object fun e he => ?_
    rcases List.mem_pair.mp he with rfl | rfl
    · exact .number (by decide) (by decide)
    · exact htags
  have hdepth : volumeSize.depth ≤ 127 := by decide
  exact ⟨hordered, hintegral, hdepth, rfl, rfl,
    (decode_plainText_of_integral Host.bare emptyObject _ hordered hintegral hdepth).1
      (.inl ⟨rfl, rfl⟩)⟩

end Schema

end ApiCommand
