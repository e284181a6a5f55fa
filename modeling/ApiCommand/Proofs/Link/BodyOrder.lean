import ApiCommand.Proofs.Json.Changes
import ApiCommand.Proofs.Json.PointerBijection
import ApiCommand.Proofs.Link.Provenance
import Mathlib.Data.String.Basic

/-!
# Pointers of links that overlap

The values at the pointers of a link are written in the order of the texts of the pointers. The text
of a pointer is in front of the text of every pointer that goes on where it ends, so what a pointer
writes is not replaced later (`outerFirst_changes`). Without arrays, every pointer then leads to its
value in the end, with the changes that other pointers make inside of it, and writing fails only at
pointers that are malformed or run into a value that is no container (`kept_of_prepare`).
-/

namespace ApiCommand

/-! ## The order of pointers -/

namespace Pointer

/-- The text has no `#` in front and is not that of the empty pointer. -/
structure Plain (p : String) : Prop where
  ne_empty : p ≠ ""
  hash : p.toList.head? ≠ some '#'

/-- The text of a longer pointer goes on from that of the shorter one. -/
theorem text_append (front rest : List String) :
    (text (front ++ rest)).toList = (text front).toList ++ (text rest).toList := by
  simp only [toList_text, List.flatMap_append]

namespace Plain

variable {p p' : String} {tokens tokens' : List String}

theorem withoutHash_eq (hp : Plain p) : withoutHash p = p := by
  rw [withoutHash, if_neg hp.hash]

/-- The tokens of a plain text have this text. -/
theorem text_of_parse? (hp : Plain p) (h : parse? p = some tokens) : text tokens = p := by
  rw [parse?_eq_some_iff.mp h, hp.withoutHash_eq]

theorem tokens_ne_nil (hp : Plain p) (h : parse? p = some tokens) : tokens ≠ [] := by
  rintro rfl
  exact hp.ne_empty (hp.text_of_parse? h).symm

/-- For plain texts, a pointer to write at is read as any other one. -/
theorem readTokens?_eq (hp : Plain p) (h : parse? p = some tokens) :
    readTokens? p = some tokens := by
  rw [← hp.withoutHash_eq]
  exact readTokens?_withoutHash h

/-- A pointer leads neither to nor through the end of one whose text is in front. -/
theorem not_prefix_of_lt (hp : Plain p) (hp' : Plain p') (h : parse? p = some tokens)
    (h' : parse? p' = some tokens') (hlt : p < p') : ¬tokens' <+: tokens := by
  -- If the tokens go on, then so does the text, and a text is in front of those that go on from it.
  rintro ⟨rest, rfl⟩
  have hprefix : p'.toList <+: p.toList :=
    ⟨(text rest).toList, by
      rw [← hp'.text_of_parse? h', ← text_append, hp.text_of_parse? h]⟩
  exact hprefix.le (String.lt_iff_toList_lt.mp hlt)

end Plain

end Pointer

namespace Link

/-! ## Entries as changes -/

/-- The change that an entry makes if its expression has a value and its pointer is one. -/
def change? (r : Result) (e : String × String) : Option Json.Change := do
  let value ← Formula.resolve (.string e.2) r
  let path ← Pointer.parse? e.1
  some ⟨path, value⟩

/-- The changes that entries make, in order. -/
def changes (r : Result) (entries : List (String × String)) : List Json.Change :=
  entries.filterMap (change? r)

/-- An entry makes a change if its expression has a value and its pointer is one. -/
theorem change?_eq_some_iff {r : Result} {e : String × String} {c : Json.Change} :
    change? r e = some c ↔
      Formula.resolve (.string e.2) r = some c.value ∧ Pointer.parse? e.1 = some c.path := by
  cases c
  simp [change?, Option.bind_eq_some_iff, and_comm]

/-- A change is made by some entry. -/
theorem mem_changes {r : Result} {entries : List (String × String)} {c : Json.Change} :
    c ∈ changes r entries ↔ ∃ e ∈ entries, Formula.resolve (.string e.2) r = some c.value ∧
      Pointer.parse? e.1 = some c.path := by
  simp only [changes, List.mem_filterMap, change?_eq_some_iff]

section Entries

variable {r : Result} {entries : List (String × String)} {v w : Json}

/-- Writing at pointers is making the changes. No pointer of an expression with a value is
malformed. -/
theorem writeAll_of_writeBody (h : writeBody r entries v = .ok w) :
    v.writeAll (changes r entries) = .ok w ∧
      ∀ e ∈ entries, (Formula.resolve (.string e.2) r).isSome → (Pointer.parse? e.1).isSome := by
  induction entries generalizing v with
  | nil =>
    cases h
    exact ⟨rfl, fun _ he => absurd he List.not_mem_nil⟩
  | cons e rest ih =>
    obtain ⟨hnone, h⟩ | ⟨item, path, u, hitem, hpath, hu, h⟩ := writeBody_cons_eq_ok_iff.mp h
    · have hskip : change? r e = none := by simp [change?, hnone]
      obtain ⟨hwrite, hparse⟩ := ih h
      rw [changes, List.filterMap_cons_none hskip]
      refine ⟨hwrite, List.forall_mem_cons.mpr ⟨fun hsome => ?_, hparse⟩⟩
      simp [hnone] at hsome
    · have hchange : change? r e = some ⟨path, item⟩ := change?_eq_some_iff.mpr ⟨hitem, hpath⟩
      obtain ⟨hwrite, hparse⟩ := ih h
      rw [changes, List.filterMap_cons_some hchange]
      refine ⟨Json.writeAll_cons_eq_ok_iff.mpr ⟨u, hu, hwrite⟩, ?_⟩
      exact List.forall_mem_cons.mpr ⟨fun _ => by simp [hpath], hparse⟩

/-- Writing at pointers stops at the first entry that has a value which cannot be written. -/
theorem exists_of_writeBody_eq_error {f : Fault} (h : writeBody r entries v = .error f) :
    ∃ before e after item u, entries = before ++ e :: after ∧
      Formula.resolve (.string e.2) r = some item ∧ writeBody r before v = .ok u ∧
      ((Pointer.parse? e.1 = none ∧ f = .malformedPointer e.1) ∨
        ∃ path o, Pointer.parse? e.1 = some path ∧ u.write path item = .error o ∧
          f = .unwritable e.1 o) := by
  induction entries generalizing v with
  | nil => cases h
  | cons e rest ih =>
    simp only [writeBody] at h
    split at h
    -- An entry without a value is skipped.
    next hnone =>
      obtain ⟨before, e', after, item, u, rfl, hitem, hu, hreason⟩ := ih h
      exact ⟨e :: before, e', after, item, u, rfl, hitem,
        writeBody_cons_eq_ok_iff.mpr (.inl ⟨hnone, hu⟩), hreason⟩
    next item hitem =>
      split at h
      -- The pointer of the entry is none.
      next hparse =>
        cases h
        exact ⟨[], e, rest, item, v, rfl, hitem, rfl, .inl ⟨hparse, rfl⟩⟩
      next path hpath =>
        split at h
        -- Nothing can be written at the pointer.
        next o ho =>
          cases h
          exact ⟨[], e, rest, item, v, rfl, hitem, rfl, .inr ⟨path, o, hpath, ho, rfl⟩⟩
        next u hu =>
          -- The entry is written, and a later one fails.
          obtain ⟨before, e', after, item', u', rfl, hitem', hu', hreason⟩ := ih h
          exact ⟨e :: before, e', after, item', u', rfl, hitem',
            writeBody_cons_eq_ok_iff.mpr (.inr ⟨item, path, u, hitem, hpath, hu, hu'⟩), hreason⟩

/-- Outer changes come first, since the texts of pointers ascend. -/
theorem outerFirst_changes (hsorted : Dict.Sorted entries)
    (hplain : ∀ e ∈ entries, Pointer.Plain e.1) : Json.OuterFirst (changes r entries) := by
  refine List.pairwise_filterMap.mpr (hsorted.imp_of_mem ?_)
  intro e e' he he' hlt c hc c' hc'
  exact (hplain e he).not_prefix_of_lt (hplain e' he') (change?_eq_some_iff.mp hc).2
    (change?_eq_some_iff.mp hc').2 hlt

end Entries

/-! ## Values without arrays -/

/-- There is no array in the values that the expressions of the link have. -/
structure WithoutArrays (l : Link) (op : Operation) (r : Result) : Prop where
  parameters : ∀ e ∈ l.parameters, ∀ v, Formula.resolve e.2 r = some v → v.ArrayFree
  pointers : ∀ e ∈ l.bodyParameters op.extensionMark, ∀ v,
    Formula.resolve (.string e.2) r = some v → v.ArrayFree

section Arrays

variable {l : Link} {op : Operation} {r : Result} (h : l.WithoutArrays op r)

include h

/-- The parameters of a link bring no arrays. -/
theorem WithoutArrays.parameterInputs :
    (Json.object (l.parameterInputs op r).parameters).ArrayFree := by
  unfold Link.parameterInputs
  refine List.foldlRecOn (motive := fun inputs : Inputs =>
    (Json.object inputs.parameters).ArrayFree) l.parameters _ Json.arrayFree_emptyObject ?_
  intro inputs hinputs e he
  unfold putParameter
  split
  next v slot hv _ =>
    cases slot with
    | parameter name => exact hinputs.insert name (h.parameters e he v hv)
    | config name => exact hinputs
  next => exact hinputs

/-- The entries of a link are plain changes. -/
theorem WithoutArrays.changes
    (hplain : ∀ e ∈ l.bodyParameters op.extensionMark, Pointer.Plain e.1) :
    ∀ c ∈ Link.changes r (l.bodyParameters op.extensionMark), c.Plain := by
  intro c hc
  obtain ⟨e, he, hvalue, hpath⟩ := mem_changes.mp hc
  exact ⟨(hplain e he).tokens_ne_nil hpath, h.pointers e he _ hvalue⟩

end Arrays

/-! ## What is found at the pointers -/

/-- At the pointer `p`, which stands for `path`, a value has `w`: the value `v` that was written
there, with the changes made that lead into it. -/
structure Kept (changes : List Json.Change) (p : String) (v : Json) (parameters : Json)
    (path : List String) (w : Json) : Prop where
  parse : Pointer.parse? p = some path
  read : Pointer.readTokens? p = some path
  found : parameters.at? path = some w
  /-- If no other change leads into the value, then it is as it was written. -/
  same : (∀ c ∈ changes, path <+: c.path → c.path = path) → w = v
  /-- Otherwise these changes were made in it. -/
  changed : v.writeAll (Json.changesBelow path changes) = .ok w
  /-- What is beside the places of these changes is as it was written. -/
  apart : ∀ other,
    (∀ c ∈ Json.changesBelow path changes, ¬c.path <+: other ∧ ¬other <+: c.path) →
      w.at? other = v.at? other

/-- Why values cannot be written at pointers. -/
inductive Obstructed (r : Result) (start : Json) (entries : List (String × String)) :
    Fault → Prop where
  /-- The pointer of an expression with a value is malformed. -/
  | malformed {e : String × String} (mem : e ∈ entries)
      (value : (Formula.resolve (.string e.2) r).isSome) (parse : Pointer.parse? e.1 = none) :
      Obstructed r start entries (.malformedPointer e.1)
  /-- The pointer of an expression with a value runs through a value that is no container. That was
  there from the start, or an earlier entry has written it. -/
  | blocked {before after : List (String × String)} {e : String × String} {done rest : List String}
      {token : String} {u found : Json} (split : entries = before ++ e :: after)
      (value : (Formula.resolve (.string e.2) r).isSome)
      (parse : Pointer.parse? e.1 = some (done ++ token :: rest))
      (run : writeBody r before start = .ok u) (reached : u.at? done = some found)
      (leaf : found.IsLeaf)
      (source : start.at? done = some found ∨ ∃ c ∈ changes r before, ∃ inner,
        done = c.path ++ inner ∧ c.value.at? inner = some found) :
      Obstructed r start entries (.unwritable e.1 (found.obstacle token rest))

/-- What is found in an object does not change if values are added to it. -/
theorem at?_fill {d additional : Dict Json} {path : List String} {w : Json} (hne : path ≠ [])
    (h : (Json.object d).at? path = some w) :
    (Json.object (fill d additional)).at? path = some w := by
  obtain ⟨key, rest, rfl⟩ := List.exists_cons_of_ne_nil hne
  rw [Json.at?] at h ⊢
  obtain ⟨inner, hinner, hrest⟩ := Option.bind_eq_some_iff.mp h
  rw [get?_fill, hinner, Option.some_or, Option.bind_some, hrest]

section Pointers

variable {l : Link} {op : Operation} {schema : Schema} {r : Result} {additional : Dict Json}
  (hsorted : Dict.Sorted (l.bodyParameters op.extensionMark))
  (hplain : ∀ e ∈ l.bodyParameters op.extensionMark, Pointer.Plain e.1)
  (hfree : l.WithoutArrays op r)

include hplain hfree

include hsorted in
/-- No value is lost, whatever pointers overlap. -/
theorem kept_of_inputs {inputs : Inputs} (h : l.inputs op schema r additional = .ok inputs)
    {e : String × String} (he : e ∈ l.bodyParameters op.extensionMark) {v : Json}
    (hv : Formula.resolve (.string e.2) r = some v) :
    ∃ path w, Kept (changes r (l.bodyParameters op.extensionMark)) e.1 v
      (.object inputs.parameters) path w := by
  obtain ⟨-, written, hbody, rfl⟩ := inputs_eq_ok_iff.mp h
  obtain ⟨hwrite, hparse⟩ := writeAll_of_writeBody hbody
  obtain ⟨path, hpath⟩ := Option.isSome_iff_exists.mp (hparse e he (by rw [hv]; rfl))
  have hmem : ⟨path, v⟩ ∈ changes r (l.bodyParameters op.extensionMark) :=
    mem_changes.mpr ⟨e, he, hv, hpath⟩
  have hchanges := hfree.changes hplain
  obtain ⟨w, hw, hfound⟩ := Json.exists_at?_writeAll hfree.parameterInputs hchanges hwrite
    (outerFirst_changes hsorted hplain) hmem
  refine ⟨path, w, hpath, (hplain e he).readTokens?_eq hpath,
    at?_fill ((hplain e he).tokens_ne_nil hpath) hfound, fun hother => ?_, hw, fun other => ?_⟩
  · -- A change to the path itself is not one inside of the value.
    have hnone : Json.changesBelow path (changes r (l.bodyParameters op.extensionMark)) = [] := by
      refine List.filterMap_eq_nil_iff.mpr fun c hc => Json.below?_eq_none ?_
      rw [or_iff_not_imp_left, Classical.not_not]
      exact fun hprefix => hother c hc hprefix ▸ List.prefix_refl _
    rw [hnone, Json.writeAll_nil] at hw
    exact (Except.ok.inj hw).symm
  · exact Json.at?_writeAll_of_apart (hfree.pointers e he v hv)
      (Json.plain_changesBelow hchanges) hw

/-- Writing at the pointers fails only if one of them is malformed or runs through a value that is
no container and was written before. -/
theorem obstructed_of_inputs {f : Fault} (hcomplaints : schema.complaints (.object additional) = [])
    (h : l.inputs op schema r additional = .error f) :
    Obstructed r (.object (l.parameterInputs op r).parameters)
      (l.bodyParameters op.extensionMark) f := by
  -- The parameters conform, so that only writing can have failed.
  have hbody : writeBody r (l.bodyParameters op.extensionMark)
      (.object (l.parameterInputs op r).parameters) = .error f := by
    unfold Link.inputs at h
    simp only [hcomplaints, List.isEmpty_nil, if_true] at h
    cases hrun : writeBody r (l.bodyParameters op.extensionMark)
        (.object (l.parameterInputs op r).parameters) with
    | error f' =>
      rw [hrun] at h
      cases h
      rfl
    | ok v =>
      rw [hrun] at h
      cases h
  -- The entries before the failing one were written.
  obtain ⟨before, e, after, item, u, hsplit, hitem, hu, hreason⟩ :=
    exists_of_writeBody_eq_error hbody
  have hsome : (Formula.resolve (.string e.2) r).isSome := by rw [hitem]; rfl
  have he : e ∈ l.bodyParameters op.extensionMark := by simp [hsplit]
  rcases hreason with ⟨hnone, rfl⟩ | ⟨path, o, hpath, ho, rfl⟩
  · exact .malformed he hsome hnone
  · -- None of these brought an array, so the obstacle is a value that is no container.
    have hbefore : ∀ c ∈ changes r before, c.Plain := by
      intro c hc
      refine hfree.changes hplain c ?_
      rw [hsplit, changes, List.filterMap_append]
      exact List.mem_append_left _ hc
    have hwrite := (writeAll_of_writeBody hu).1
    obtain ⟨done, token, rest, found, rfl, hfound, hleaf, rfl⟩ :=
      Json.write_eq_error (Json.arrayFree_writeAll hfree.parameterInputs hbefore hwrite)
        ((hplain e he).tokens_ne_nil hpath) ho
    exact .blocked hsplit hsome hpath hu hfound hleaf
      (Json.source_of_writeAll hfree.parameterInputs hbefore hwrite hfound hleaf)

end Pointers

end Link

namespace LinkMemo

variable {m : LinkMemo} {c : Catalog} {op : Operation} {r : Result} {additional : Dict Json}

/-- If no array occurs in the values of a link's expressions, then the order in which they are
written at pointers loses none of them: in the inputs that are prepared, each pointer leads to its
value, with the changes that other pointers make inside of it. Preparing fails after the added
values were checked only because a pointer is malformed or runs through a value that is no container
and was written before. -/
theorem kept_of_prepare (htarget : m.target? c = some op)
    (hsorted : Dict.Sorted (m.link.bodyParameters op.extensionMark))
    (hplain : ∀ e ∈ m.link.bodyParameters op.extensionMark, Pointer.Plain e.1)
    (hfree : m.link.WithoutArrays op r) :
    (∀ inputs, m.prepare c r additional = .ok inputs →
      ∀ e ∈ m.link.bodyParameters op.extensionMark, ∀ v,
        Formula.resolve (.string e.2) r = some v →
          ∃ path w, Link.Kept (Link.changes r (m.link.bodyParameters op.extensionMark)) e.1 v
            (.object inputs.parameters) path w) ∧
    ∀ f, (m.additional.getD (m.link.additionalSchema op)).complaints (.object additional) = [] →
      m.prepare c r additional = .error f →
        Link.Obstructed r (.object (m.link.parameterInputs op r).parameters)
          (m.link.bodyParameters op.extensionMark) f := by
  rw [prepare_eq_inputs htarget]
  exact ⟨fun inputs h e he v hv => Link.kept_of_inputs hsorted hplain hfree h he hv,
    fun f hcomplaints h => Link.obstructed_of_inputs hplain hfree hcomplaints h⟩

/-- The operation `tagVolume` of a catalog. -/
def tagging : Operation := .ofSpec "x-relay" "https://api" none tagVolume

/-- A link to `tagVolume` whose second pointer leads into the value at the first one. -/
def volumeLink : Link :=
  { name := "volume", operationId := some "tagVolume"
    parameters := [("path.id", .string "$response.body#/id")]
    extensions := [
      ("x-relay-requestBodyParameters", .object
        [("/volume", .string "$response.body"), ("/volume/id", .string "$request.query.tag")])] }

/-- The pointers of the link, as the operation that it leads to finds them. -/
theorem bodyParameters_volumeLink :
    volumeLink.bodyParameters tagging.extensionMark =
      [("/volume", "$response.body"), ("/volume/id", "$request.query.tag")] := by
  decide +kernel

theorem resolve_body_created :
    Formula.resolve (.string "$response.body") created =
      some (.object [("id", .string "v1")]) := by
  rfl

theorem resolve_tag_created :
    Formula.resolve (.string "$request.query.tag") created = some (.string "new") := by
  rfl

theorem withoutArrays_volumeLink : volumeLink.WithoutArrays tagging created := by
  constructor
  case parameters =>
    have hid : Formula.resolve (.string "$response.body#/id") created = some (.string "v1") := by
      rfl
    intro e he v hv
    obtain rfl := List.mem_singleton.mp he
    cases hid.symm.trans hv
    exact .leaf trivial
  case pointers =>
    rw [bodyParameters_volumeLink]
    intro e he v hv
    simp only [List.mem_cons, List.not_mem_nil, or_false] at he
    rcases he with rfl | rfl
    · cases resolve_body_created.symm.trans hv
      exact .object fun e he => List.mem_singleton.mp he ▸ .leaf trivial
    · cases resolve_tag_created.symm.trans hv
      exact .leaf trivial

/-- The value at the outer pointer is found with the inner value in it. -/
theorem kept_of_prepare_volumeLink :
    ∃ inputs,
      LinkMemo.prepare { link := volumeLink } { name := "volumes", operations := [tagging] } created
          [] = .ok inputs ∧
        (Json.object inputs.parameters).at? ["volume"] =
          some (.object [("id", .string "new")]) := by
  have hrun : (match LinkMemo.prepare { link := volumeLink }
        { name := "volumes", operations := [tagging] } created [] with
      | .error _ => false
      | .ok _ => true) = true := by
    decide +kernel
  have hsorted : Dict.Sorted (volumeLink.bodyParameters tagging.extensionMark) := by
    rw [bodyParameters_volumeLink]
    unfold Dict.Sorted
    decide
  have hplain : ∀ e ∈ volumeLink.bodyParameters tagging.extensionMark, Pointer.Plain e.1 := by
    rw [bodyParameters_volumeLink]
    intro e he
    simp only [List.mem_cons, List.not_mem_nil, or_false] at he
    rcases he with rfl | rfl <;> exact ⟨by decide, by decide⟩
  split at hrun
  next => cases hrun
  next inputs hinputs =>
    refine ⟨inputs, hinputs, ?_⟩
    obtain ⟨path, w, hkept⟩ := (kept_of_prepare rfl hsorted hplain withoutArrays_volumeLink).1
      inputs hinputs ("/volume", "$response.body") (by rw [bodyParameters_volumeLink]; simp) _
      resolve_body_created
    obtain rfl : ["volume"] = path := by
      have hparse : Pointer.parse? "/volume" = some ["volume"] := by decide +kernel
      exact Option.some.inj (hparse.symm.trans hkept.parse)
    have hchanged := hkept.changed
    rw [bodyParameters_volumeLink] at hchanged
    cases hchanged
    exact hkept.found

end LinkMemo

end ApiCommand
