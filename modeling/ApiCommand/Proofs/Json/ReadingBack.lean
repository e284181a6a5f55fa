import ApiCommand.Link.Expression
import ApiCommand.Proofs.Json.Way

/-!
# Reading what was written

Writing takes the index of an item with a plus sign or with zeros in front, and `-` for the place
behind the last item; reading takes none of these. So what was written at a pointer is read there
exactly if the tokens are plain numerals where the way runs through arrays (`at?_of_write`).
-/

namespace ApiCommand

namespace Pointer

/-- Reading takes an index if its numeral has no sign and no zero in front. -/
theorem readIndex?_eq_some_iff {token : String} {index : Nat} :
    readIndex? token = some index ↔ Text.IsWhole token.toList ∧ Denotes token index := by
  rw [← word64?_eq_some_iff]
  unfold readIndex?
  split
  -- A zero in front of other characters is refused.
  next c rest heq =>
    refine iff_of_false (Option.some_ne_none index ∘ Eq.symm) fun ⟨hwhole, _⟩ => ?_
    exact List.cons_ne_nil _ _ (hwhole.zero _ heq)
  -- So is a plus sign.
  next rest heq =>
    refine iff_of_false (Option.some_ne_none index ∘ Eq.symm) fun ⟨hwhole, _⟩ => ?_
    exact absurd (hwhole.isDigit '+' (heq ▸ List.mem_cons_self)) (by decide)
  -- Otherwise the sign is empty, and no zero stands in front of other digits.
  next hzero hplus =>
    refine ⟨fun h => ⟨?_, h⟩, And.right⟩
    obtain ⟨sign, digits, heq, rfl | rfl, hne, hdigits, -⟩ := word64?_eq_some_iff.mp h
    · rw [List.nil_append] at heq
      rw [heq] at hzero ⊢
      refine ⟨hne, hdigits, fun rest hrest => ?_⟩
      cases rest with
      | nil => rfl
      | cons c rest => exact absurd hrest (hzero c rest)
    · exact absurd heq (hplus digits)

/-- The text of a pointer without the `#` that may stand in front. -/
def withoutHash (p : String) : String :=
  if p.toList.head? = some '#' then String.ofList p.toList.tail else p

/-- A pointer is read in the same way with a `#` in front of it and without one. -/
theorem parse?_eq_tokensOf? (p : String) : parse? p = tokensOf? (withoutHash p).toList := by
  unfold parse? withoutHash
  cases hp : p.toList with
  | nil => rw [if_neg (by simp), hp]
  | cons c rest =>
    by_cases hhash : c = '#'
    · subst hhash
      show tokensOf? rest = _
      rw [List.head?_cons, if_pos rfl, List.tail_cons, String.toList_ofList]
    · rw [if_neg (by simpa using hhash), hp]
      split
      next heq => exact absurd (List.cons.inj heq).1 hhash
      next => rfl

/-- Tokens that are escaped well are read alike. -/
theorem unescapeLoose_of_unescape? {cs token : List Char} (h : unescape? cs = some token) :
    unescapeLoose cs = token := by
  induction cs using unescape?.induct generalizing token with
  | case1 =>
    cases h
    rfl
  | case2 rest ih =>
    obtain ⟨token, htoken, rfl⟩ := Option.map_eq_some_iff.mp h
    rw [unescapeLoose, ih htoken]
  | case3 rest ih =>
    obtain ⟨token, htoken, rfl⟩ := Option.map_eq_some_iff.mp h
    rw [unescapeLoose, ih htoken]
  | case4 => simp [unescape?] at h
  | case5 c rest _ _ hc ih =>
    simp only [unescape?, hc, if_false] at h
    obtain ⟨token, htoken, rfl⟩ := Option.map_eq_some_iff.mp h
    simp [unescapeLoose, ih htoken]

/-- Reading that lets every `~` pass agrees with the strict one where this one succeeds. -/
theorem map_unescapeLoose_of_unescapeAll? {parts : List (List Char)} {tokens : List String}
    (h : unescapeAll? parts = some tokens) :
    parts.map (fun part => String.ofList (unescapeLoose part)) = tokens := by
  induction parts generalizing tokens with
  | nil =>
    cases h
    rfl
  | cons part parts ih =>
    simp only [unescapeAll?, Option.bind_eq_bind, Option.bind_eq_some_iff, Option.some.injEq] at h
    obtain ⟨token, htoken, tokens, htokens, rfl⟩ := h
    rw [List.map_cons, unescapeLoose_of_unescape? htoken, ih htokens]

/-- A text that can be read as a pointer to write at is read alike behind its `#`. -/
theorem readTokens?_withoutHash {p : String} {tokens : List String} (h : parse? p = some tokens) :
    readTokens? (withoutHash p) = some tokens := by
  rw [parse?_eq_tokensOf?] at h
  unfold readTokens?
  cases hp : (withoutHash p).toList with
  | nil =>
    rw [hp] at h
    exact h
  | cons c rest =>
    rw [hp] at h
    by_cases hslash : c = '/'
    · subst hslash
      exact congrArg some (map_unescapeLoose_of_unescapeAll? h)
    · simp [tokensOf?, hslash] at h

end Pointer

namespace Json

/-- The tokens are plain numerals where they lead through arrays that are there: digits without a
zero in front of others. -/
def PlainAlong (v : Json) (tokens : List String) : Prop :=
  ∀ done token rest place items, tokens = done ++ token :: rest → v.Follows done place →
    v.node? place = some (array items) → Text.IsWhole token.toList

theorem plainAlong_nil (v : Json) : v.PlainAlong [] := by
  intro done token rest place items heq
  simp at heq

theorem plainAlong_emptyObject (tokens : List String) : emptyObject.PlainAlong tokens := by
  intro done token rest place items _ _ hnode
  cases place with
  | nil => cases hnode
  | cons s place =>
    rw [node?, child?_emptyObject] at hnode
    cases hnode

/-- The first token counts if the value is an array, and the others count behind its step. -/
theorem plainAlong_cons {v : Json} {token : String} {tokens : List String} {s : Step}
    (h : v.Leads token s) :
    v.PlainAlong (token :: tokens) ↔
      (∀ items, v = array items → Text.IsWhole token.toList) ∧ (v.childD s).PlainAlong tokens := by
  constructor
  · intro hplain
    refine ⟨?_, ?_⟩
    · rintro items rfl
      exact hplain [] token tokens [] items rfl trivial rfl
    · cases hchild : v.child? s with
      | none =>
        -- There are no arrays in what is still to be created.
        rw [childD_of_none hchild]
        exact plainAlong_emptyObject tokens
      | some inner =>
        rw [childD_of_child? hchild]
        rintro done token' rest place items rfl hfollows hnode
        refine hplain (token :: done) token' rest (s :: place) items rfl ⟨h, ?_⟩ ?_
        · rwa [childD_of_child? hchild]
        · rw [node?, hchild, Option.bind_some, hnode]
  · rintro ⟨hfirst, hbehind⟩ done token' rest place items heq hfollows hnode
    cases done with
    | nil =>
      cases heq
      obtain rfl := follows_nil.mp hfollows
      exact hfirst items (Option.some.inj hnode)
    | cons first done =>
      obtain ⟨rfl, rfl⟩ := List.cons.inj heq
      obtain ⟨s', place, rfl, hleads, hrest⟩ := follows_cons.mp hfollows
      obtain rfl := h.unique hleads
      obtain ⟨inner, hchild, hinner⟩ := Option.bind_eq_some_iff.mp hnode
      refine hbehind done token' rest place items rfl hrest ?_
      rw [childD_of_child? hchild, hinner]

section Reading

variable {v : Json} {token : String} {s : Step} (h : v.Leads token s)

include h

/-- At a plain index, or at any name of a member, what was put there is read. -/
theorem at?_putChild (hplain : ∀ items, v = array items → Text.IsWhole token.toList)
    (tokens : List String) (inner : Json) :
    (v.putChild s inner).at? (token :: tokens) = inner.at? tokens := by
  cases v <;> try exact h.elim
  case object members =>
    cases h
    rw [putChild, at?, Dict.get?_insert, if_pos rfl, Option.bind_some]
  case array items =>
    -- The token `-` is no plain numeral, so the index is that of the numeral.
    obtain ⟨index, rfl, ⟨rfl, -⟩ | ⟨hdenotes, hle⟩⟩ := h
    · exact absurd ((hplain items rfl).isDigit '-' (by decide)) (by decide)
    · have hindex := Pointer.readIndex?_eq_some_iff.mpr ⟨hplain items rfl, hdenotes⟩
      rw [putChild, at?, hindex, Option.bind_some, getElem?_putItem hle, if_pos rfl,
        Option.bind_some]

/-- A token of an array that is no plain numeral finds nothing after a value was put there. -/
theorem at?_putChild_eq_none (hplain : ¬∀ items, v = array items → Text.IsWhole token.toList)
    (tokens : List String) (inner : Json) : (v.putChild s inner).at? (token :: tokens) = none := by
  cases v <;> try exact h.elim
  case object members => exact absurd (fun _ heq => nomatch heq) hplain
  case array items =>
    obtain ⟨index, rfl, -⟩ := h
    have hnone : Pointer.readIndex? token = none := by
      refine Option.eq_none_iff_forall_ne_some.mpr fun other hother => hplain fun _ _ => ?_
      exact (Pointer.readIndex?_eq_some_iff.mp hother).1
    rw [putChild, at?, hnone, Option.bind_none, Option.bind_none]

end Reading

/-- What was put at the end of a way is read there if all tokens in arrays are plain; one that is
not hides it. -/
theorem at?_putAt {v : Json} {tokens : List String} {way : List Step} (h : v.Follows tokens way)
    (item : Json) :
    (v.PlainAlong tokens → (v.putAt way item).at? tokens = some item) ∧
      (¬v.PlainAlong tokens → (v.putAt way item).at? tokens = none) := by
  induction tokens generalizing v way with
  | nil =>
    obtain rfl := follows_nil.mp h
    exact ⟨fun _ => rfl, fun hplain => absurd (plainAlong_nil v) hplain⟩
  | cons token tokens ih =>
    obtain ⟨s, rest, rfl, hleads, hrest⟩ := follows_cons.mp h
    obtain ⟨hfound, hlost⟩ := ih hrest
    rw [plainAlong_cons hleads, putAt]
    constructor
    · rintro ⟨hplain, hbehind⟩
      rw [at?_putChild hleads hplain, hfound hbehind]
    · intro hnot
      by_cases hplain : ∀ items, v = array items → Text.IsWhole token.toList
      · rw [at?_putChild hleads hplain, hlost fun hbehind => hnot ⟨hplain, hbehind⟩]
      · exact at?_putChild_eq_none hleads hplain _ _

/-- What was written at a pointer is read there, in a body too, if the tokens are plain numerals
where the way runs through arrays. Otherwise nothing is read there. -/
theorem at?_of_write {p : String} {tokens : List String} {v item w : Json}
    (hp : Pointer.parse? p = some tokens) (hne : tokens ≠ [])
    (hwrite : v.write tokens item = .ok w) :
    (v.PlainAlong tokens → w.at? tokens = some item) ∧
      (¬v.PlainAlong tokens → w.at? tokens = none) ∧
      ∀ r side, Expression.bodyOf r side = some w →
        (Expression.body side (Pointer.withoutHash p)).evaluate r = w.at? tokens := by
  obtain ⟨token, tokens, rfl⟩ := List.exists_cons_of_ne_nil hne
  obtain ⟨way, hway, rfl⟩ := write_eq_ok_iff.mp hwrite
  obtain ⟨hfound, hlost⟩ := at?_putAt hway item
  refine ⟨hfound, hlost, fun r side hbody => ?_⟩
  rw [Expression.evaluate, hbody, Option.bind_some, Pointer.readTokens?_withoutHash hp,
    Option.bind_some]

/-- A list of tags, and the list with one more. -/
def tagged (tags : List String) : Json := object [("tags", array (tags.map string))]

/-- A tag is written behind the first one at every token that denotes the second place. -/
theorem write_tagged {token : String} (h : Pointer.Denotes token 1) :
    (tagged ["a"]).write ["tags", token] (string "b") = .ok (tagged ["a", "b"]) := by
  refine write_eq_ok_iff.mpr ⟨[.member "tags", .item 1], ?_, rfl⟩
  exact ⟨rfl, ⟨1, rfl, .inr ⟨h, Nat.le_refl _⟩⟩, trivial⟩

/-- A tag that is written behind the first one is read there. -/
theorem at?_of_write_tags :
    Pointer.parse? "#/tags/1" = some ["tags", "1"] ∧
      (tagged ["a"]).write ["tags", "1"] (string "b") = .ok (tagged ["a", "b"]) ∧
      (tagged ["a"]).PlainAlong ["tags", "1"] ∧
      (tagged ["a", "b"]).at? ["tags", "1"] = some (string "b") := by
  have hp : Pointer.parse? "#/tags/1" = some ["tags", "1"] := by decide +kernel
  have hdenotes : Pointer.Denotes "1" 1 := Pointer.word64?_eq_some_iff.mp (by decide +kernel)
  have hwrite := write_tagged hdenotes
  have hmember : (tagged ["a"]).Leads "tags" (.member "tags") := rfl
  have hitem : ((tagged ["a"]).childD (.member "tags")).Leads "1" (.item 1) :=
    ⟨1, rfl, .inr ⟨hdenotes, Nat.le_refl _⟩⟩
  have hplain : (tagged ["a"]).PlainAlong ["tags", "1"] := by
    rw [plainAlong_cons hmember, plainAlong_cons hitem]
    exact ⟨fun _ heq => (nomatch heq), fun _ _ => Text.isWhole_toDigits 1, plainAlong_nil _⟩
  exact ⟨hp, hwrite, hplain, (at?_of_write hp (List.cons_ne_nil _ _) hwrite).1 hplain⟩

/-- With a zero in front of the index, the tag is written there, and it is not read there. -/
theorem at?_ne_tags :
    ∃ tokens w, Pointer.parse? "/tags/01" = some tokens ∧ tokens ≠ [] ∧ "-" ∉ tokens ∧
      (tagged ["a"]).write tokens (string "b") = .ok w ∧ w.at? tokens ≠ some (string "b") := by
  have hdenotes : Pointer.Denotes "01" 1 := Pointer.word64?_eq_some_iff.mp (by decide +kernel)
  have hnone : (tagged ["a", "b"]).at? ["tags", "01"] = none := rfl
  refine ⟨["tags", "01"], tagged ["a", "b"], by decide +kernel, List.cons_ne_nil _ _, by decide,
    write_tagged hdenotes, ?_⟩
  rw [hnone]
  simp

end Json

end ApiCommand
