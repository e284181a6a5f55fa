import ApiCommand.Proofs.Json.Way
import Mathlib.Data.List.Basic

/-!
# Changes inside of values

A change is a path and the value to write there. Without arrays a path is a list of names, and
reading and writing agree on what it leads to (`at?_eq_node?`, `write_eq_ok_iff_putAt`). If outer
changes come first, then none is lost: at the path of a change there is in the end its own value,
with the changes made that lead into it (`exists_at?_writeAll`). Writing fails only at a value that
is no container, and such a value was there before or belongs to an earlier change
(`write_eq_error`, `source_of_isLeaf`).
-/

namespace ApiCommand.Json

/-! ## Values without arrays -/

/-- There is no array in the value, at any depth. -/
inductive ArrayFree : Json → Prop where
  | leaf {v : Json} : v.IsLeaf → ArrayFree v
  | object {members : Dict Json} : (∀ e ∈ members, ArrayFree e.2) → ArrayFree (.object members)

theorem arrayFree_emptyObject : emptyObject.ArrayFree :=
  .object fun _ he => absurd he List.not_mem_nil

theorem not_arrayFree_array (items : List Json) : ¬(array items).ArrayFree := by
  intro h
  cases h with
  | leaf h => exact h

/-- An object is free of arrays if all its members are. -/
theorem arrayFree_object_iff {members : Dict Json} :
    (object members).ArrayFree ↔ ∀ e ∈ members, e.2.ArrayFree := by
  refine ⟨fun h => ?_, .object⟩
  cases h with
  | leaf h => exact h.elim
  | object h => exact h

namespace ArrayFree

variable {v inner item : Json} {path : List String}

/-- A member without arrays leaves an object without arrays. -/
theorem insert {members : Dict Json} (h : (Json.object members).ArrayFree) (key : String)
    (hinner : inner.ArrayFree) : (Json.object (Dict.insert members key inner)).ArrayFree := by
  rw [arrayFree_object_iff] at h ⊢
  intro e he
  rcases Dict.eq_or_mem_of_mem_insert he with rfl | hmem
  · exact hinner
  · exact h e hmem

/-- What is inside of a value without arrays has none either. -/
theorem of_child? {s : Step} (h : v.ArrayFree) (hinner : v.child? s = some inner) :
    inner.ArrayFree := by
  cases v <;> cases s <;> try cases hinner
  case array.item => exact absurd h (not_arrayFree_array _)
  case object.member =>
    exact arrayFree_object_iff.mp h _ (Dict.mem_of_get?_eq_some hinner)

theorem childD (h : v.ArrayFree) (s : Step) : (v.childD s).ArrayFree := by
  cases hchild : v.child? s with
  | none =>
    rw [childD_of_none hchild]
    exact arrayFree_emptyObject
  | some inner =>
    rw [childD_of_child? hchild]
    exact h.of_child? hchild

/-- Every node of a value without arrays is free of them. -/
theorem of_node? {place : List Step} (h : v.ArrayFree) (hinner : v.node? place = some inner) :
    inner.ArrayFree := by
  induction place generalizing v with
  | nil =>
    cases hinner
    exact h
  | cons s place ih =>
    obtain ⟨child, hchild, hnode⟩ := Option.bind_eq_some_iff.mp hinner
    exact ih (h.of_child? hchild) hnode

/-- Putting an item without arrays somewhere does not bring one. -/
theorem putAt (h : v.ArrayFree) (hitem : item.ArrayFree) (path : List String) :
    (v.putAt (path.map .member) item).ArrayFree := by
  induction path generalizing v with
  | nil => exact hitem
  | cons key path ih =>
    have hinner := ih (h.childD (.member key))
    rw [List.map_cons, Json.putAt]
    -- Only an object takes a member.
    cases v with
    | object members => exact h.insert key hinner
    | _ => exact h

/-- A path leads through the members that its names are the keys of. -/
theorem at?_eq_node? (h : v.ArrayFree) (path : List String) :
    v.at? path = v.node? (path.map .member) := by
  induction path generalizing v with
  | nil => rfl
  | cons key path ih =>
    rw [List.map_cons, node?]
    cases hchild : v.child? (.member key) with
    | some inner =>
      cases v <;> try cases hchild
      case object members =>
        rw [at?, show Dict.get? members key = some inner from hchild, Option.bind_some,
          Option.bind_some, ih (h.of_child? hchild)]
    | none =>
      cases v with
      | object members =>
        rw [at?, show Dict.get? members key = none from hchild, Option.bind_none, Option.bind_none]
      | array => exact absurd h (not_arrayFree_array _)
      | _ => rfl

end ArrayFree

/-- Reading at a path that goes on is reading from what is there at the rest of the path. -/
theorem at?_append (path rest : List String) (v : Json) :
    v.at? (path ++ rest) = (v.at? path).bind (at? rest) := by
  induction path generalizing v with
  | nil => rfl
  | cons token path ih =>
    have htail : at? (path ++ rest) = fun v => (at? path v).bind (at? rest) := funext ih
    cases v with
    | object members => rw [List.cons_append, at?, at?, htail, Option.bind_assoc]
    | array items => rw [List.cons_append, at?, at?, htail, ← Option.bind_assoc]
    | _ => rfl

/-! ## One change -/

/-- What a value that is no container is to a path that goes on. -/
def obstacle (found : Json) (token : String) (rest : List String) : Pointer.Obstacle :=
  if rest.isEmpty then .cannotSet found.kind token else .cannotDescend found.kind token

/-- A member can be put into a value where its key leads. -/
theorem takes_member_iff {v : Json} {key : String} :
    v.Takes (.member key) ↔ v.Leads key (.member key) := by
  cases v <;> simp [Takes, Leads]

/-- Tokens follow the way of the members that they name if all of its steps can be taken. -/
theorem follows_members_iff {v : Json} {path : List String} :
    v.Follows path (path.map .member) ↔ v.Admits (path.map .member) := by
  induction path generalizing v with
  | nil => exact Iff.rfl
  | cons key path ih =>
    rw [List.map_cons, Follows, Admits, ih, takes_member_iff]

theorem stepIn_of_isLeaf {v : Json} (h : v.IsLeaf) (refuse : Kind → String → Pointer.Obstacle)
    (token : String) : v.stepIn refuse token = .error (refuse v.kind token) := by
  cases v <;> first | rfl | exact h.elim

/-- What is no container was there, also if an object is put where nothing is. -/
theorem at?_cons_of_childD {members : Dict Json} {key : String} {path : List String} {found : Json}
    (h : ((object members).childD (.member key)).at? path = some found) (hleaf : found.IsLeaf) :
    (object members).at? (key :: path) = some found := by
  rw [childD, child?] at h
  rw [at?]
  cases hget : Dict.get? members key with
  | some inner =>
    rw [hget] at h
    exact h
  | none =>
    rw [hget] at h
    cases path with
    | nil =>
      cases h
      exact hleaf.elim
    | cons => cases h

section Change

variable {v w item : Json} {path : List String} (hfree : v.ArrayFree)

include hfree

/-- Without arrays, the tokens of a way are the keys of members. -/
theorem eq_members_of_follows {way : List Step} (h : v.Follows path way) :
    way = path.map .member := by
  induction path generalizing v way with
  | nil => exact follows_nil.mp h
  | cons key path ih =>
    obtain ⟨s, rest, rfl, hleads, hrest⟩ := follows_cons.mp h
    rw [List.map_cons, ih (hfree.childD s) hrest]
    cases v <;> try exact hleads.elim
    case array => exact absurd hfree (not_arrayFree_array _)
    case object => rw [show s = .member key from hleads]

/-- Writing puts the item at the end of the path, through objects. -/
theorem write_eq_ok_iff_putAt (hne : path ≠ []) :
    v.write path item = .ok w ↔
      v.Admits (path.map .member) ∧ w = v.putAt (path.map .member) item := by
  obtain ⟨key, path, rfl⟩ := List.exists_cons_of_ne_nil hne
  rw [write_eq_ok_iff, ← follows_members_iff]
  constructor
  · rintro ⟨way, hway, rfl⟩
    obtain rfl := eq_members_of_follows hfree hway
    exact ⟨hway, rfl⟩
  · exact fun h => ⟨_, h⟩

/-- The steps for the names of a path can be taken as far as there is no value that is no
container. -/
theorem way_eq_error {token : String} {tokens : List String} {o : Pointer.Obstacle}
    (h : v.way token tokens = .error o) :
    ∃ done next rest found, token :: tokens = done ++ next :: rest ∧ v.at? done = some found ∧
      found.IsLeaf ∧ o = found.obstacle next rest := by
  induction tokens generalizing v token with
  | nil =>
    rw [way] at h
    cases hfree with
    | leaf hleaf =>
      rw [stepIn_of_isLeaf hleaf] at h
      cases h
      exact ⟨[], token, [], v, rfl, rfl, hleaf, rfl⟩
    | object => cases h
  | cons next tokens ih =>
    rw [way] at h
    cases hfree with
    | leaf hleaf =>
      rw [stepIn_of_isLeaf hleaf] at h
      cases h
      exact ⟨[], token, next :: tokens, v, rfl, rfl, hleaf, rfl⟩
    | @object members hmembers =>
      -- An object takes every name, so the way ends behind it.
      have hinner : ((object members).childD (.member token)).way next tokens = .error o := by
        cases hway : ((object members).childD (.member token)).way next tokens with
        | error o' =>
          rw [stepIn, Except.bind, hway] at h
          exact h
        | ok way =>
          rw [stepIn, Except.bind, hway] at h
          cases h
      obtain ⟨done, next', rest, found, heq, hfound, hleaf, rfl⟩ :=
        ih ((ArrayFree.object hmembers).childD _) hinner
      exact ⟨token :: done, next', rest, found, by rw [heq, List.cons_append],
        at?_cons_of_childD hfound hleaf, hleaf, rfl⟩

/-- Writing fails only at a value on the path that is no container. -/
theorem write_eq_error {o : Pointer.Obstacle} (hne : path ≠ [])
    (h : v.write path item = .error o) :
    ∃ done token rest found, path = done ++ token :: rest ∧ v.at? done = some found ∧
      found.IsLeaf ∧ o = found.obstacle token rest := by
  obtain ⟨key, path, rfl⟩ := List.exists_cons_of_ne_nil hne
  rw [write_cons] at h
  cases hway : v.way key path with
  | error o' =>
    rw [hway] at h
    cases h
    exact way_eq_error hfree hway
  | ok way =>
    rw [hway] at h
    cases h

end Change

section Effect

variable {v w item : Json} {path : List String} (hfree : v.ArrayFree) (hitem : item.ArrayFree)
  (hne : path ≠ []) (h : v.write path item = .ok w)

include hfree hitem hne h

/-- A plain change to a value without arrays leaves it without arrays. -/
theorem arrayFree_write : w.ArrayFree := by
  obtain ⟨-, rfl⟩ := (write_eq_ok_iff_putAt hfree hne).mp h
  exact hfree.putAt hitem path

/-- What was written is read at the path. -/
theorem at?_write : w.at? path = some item := by
  rw [(arrayFree_write hfree hitem hne h).at?_eq_node?]
  obtain ⟨hadmits, rfl⟩ := (write_eq_ok_iff_putAt hfree hne).mp h
  exact node?_putAt hadmits item

/-- Seen from a place that the path leads through, the value was written at the rest of the path. -/
theorem at?_write_of_prefix {front rest : List String} {x : Json} (heq : path = front ++ rest)
    (hrest : rest ≠ []) (hx : v.at? front = some x) :
    ∃ x', x.write rest item = .ok x' ∧ w.at? front = some x' := by
  rw [(arrayFree_write hfree hitem hne h).at?_eq_node?]
  rw [hfree.at?_eq_node?] at hx
  obtain ⟨hadmits, rfl⟩ := (write_eq_ok_iff_putAt hfree hne).mp h
  rw [heq, List.map_append, admits_append, nodeD_of_node? hx] at hadmits
  refine ⟨x.putAt (rest.map .member) item, ?_, ?_⟩
  · exact (write_eq_ok_iff_putAt (hfree.of_node? hx) hrest).mpr ⟨hadmits.2, rfl⟩
  · rw [heq, List.map_append, putAt_append, node?_putAt hadmits.1, nodeD_of_node? hx]

/-- What is neither on the path nor below its end is not touched. -/
theorem at?_write_of_apart {other : List String} (hother : ¬path <+: other)
    (hpath : ¬other <+: path) : w.at? other = v.at? other := by
  rw [(arrayFree_write hfree hitem hne h).at?_eq_node?, hfree.at?_eq_node?]
  obtain ⟨hadmits, rfl⟩ := (write_eq_ok_iff_putAt hfree hne).mp h
  have hinj : Function.Injective Step.member := fun _ _ heq => Step.member.inj heq
  refine node?_putAt_of_apart hadmits ?_ ?_ item
  · rwa [List.prefix_map_iff_of_injective hinj]
  · rwa [List.prefix_map_iff_of_injective hinj]

/-- A value that is no container was there before, or it is part of what was written. -/
theorem source_of_write {other : List String} {found : Json} (hfound : w.at? other = some found)
    (hleaf : found.IsLeaf) :
    v.at? other = some found ∨ ∃ rest, other = path ++ rest ∧ item.at? rest = some found := by
  have hwritten := at?_write hfree hitem hne h
  by_cases hbelow : path <+: other
  · obtain ⟨rest, rfl⟩ := hbelow
    rw [at?_append, hwritten, Option.bind_some] at hfound
    exact .inr ⟨rest, rfl, hfound⟩
  by_cases habove : other <+: path
  · -- The path goes on behind `other`, so there is a container.
    obtain ⟨_ | ⟨key, rest⟩, rfl⟩ := habove
    · exact absurd (by simp) hbelow
    · rw [at?_append, hfound, Option.bind_some] at hwritten
      cases found <;> first | exact hleaf.elim | cases hwritten
  · rw [at?_write_of_apart hfree hitem hne h hbelow habove] at hfound
    exact .inl hfound

end Effect

/-! ## Changes one after another -/

/-- A value to be written at a path. -/
structure Change where
  path : List String
  value : Json

/-- The change is made below the root and brings no array. -/
structure Change.Plain (c : Change) : Prop where
  path_ne : c.path ≠ []
  value : c.value.ArrayFree

/-- The change as it is seen from the end of a path that it leads through. -/
def Change.below? (path : List String) (c : Change) : Option Change :=
  match c.path.dropPrefix? path with
  | some (key :: rest) => some ⟨key :: rest, c.value⟩
  | _ => none

/-- The changes inside of what is at the path, seen from there. -/
def changesBelow (path : List String) (changes : List Change) : List Change :=
  changes.filterMap (Change.below? path)

/-- Makes changes one after another. -/
def writeAll (changes : List Change) (v : Json) : Except Pointer.Obstacle Json :=
  changes.foldlM (fun v c => v.write c.path c.value) v

/-- No change replaces what an earlier one has written: outer changes come first, and no two are
made at one path. -/
def OuterFirst (changes : List Change) : Prop :=
  changes.Pairwise fun earlier later => ¬later.path <+: earlier.path

@[simp]
theorem writeAll_nil (v : Json) : v.writeAll [] = .ok v := rfl

/-- Changes are made if the first one is and the others are made after it. -/
theorem writeAll_cons_eq_ok_iff {c : Change} {changes : List Change} {v w : Json} :
    v.writeAll (c :: changes) = .ok w ↔
      ∃ u, v.write c.path c.value = .ok u ∧ u.writeAll changes = .ok w := by
  rw [writeAll, List.foldlM_cons]
  cases v.write c.path c.value with
  | error o => simp [bind, Except.bind]
  | ok u => simp [bind, Except.bind, writeAll]

/-- Changes can be made in two parts, one after the other. -/
theorem writeAll_append_eq_ok_iff {changes changes' : List Change} {v w : Json} :
    v.writeAll (changes ++ changes') = .ok w ↔
      ∃ u, v.writeAll changes = .ok u ∧ u.writeAll changes' = .ok w := by
  induction changes generalizing v with
  | nil => simp
  | cons c changes ih =>
    simp only [List.cons_append, writeAll_cons_eq_ok_iff, ih]
    constructor
    · rintro ⟨x, hx, u, hu, hw⟩
      exact ⟨u, ⟨x, hx, hu⟩, hw⟩
    · rintro ⟨u, ⟨x, hx, hu⟩, hw⟩
      exact ⟨x, hx, u, hu, hw⟩

/-- A change is seen from the end of a path if it goes on there. -/
theorem below?_eq_some_iff {path : List String} {c inner : Change} :
    c.below? path = some inner ↔
      c.path = path ++ inner.path ∧ inner.path ≠ [] ∧ inner.value = c.value := by
  have hdrop : ∀ rest, c.path.dropPrefix? path = some rest ↔ c.path = path ++ rest := by
    intro rest
    simp [List.dropPrefix?_eq_some_iff]
  unfold Change.below?
  split
  -- The path goes on behind the prefix, and not only up to it.
  next key rest heq =>
    rw [hdrop] at heq
    rw [heq, Option.some.injEq]
    constructor
    · rintro rfl
      simp
    · rintro ⟨hpath, -, hvalue⟩
      cases inner
      simp_all
  -- Without a token behind the prefix, the change is not inside.
  next hnot =>
    refine iff_of_false (by simp) ?_
    rintro ⟨hpath, hne, -⟩
    obtain ⟨key, rest, hinner⟩ := List.exists_cons_of_ne_nil hne
    exact hnot key rest ((hdrop _).mpr (hinner ▸ hpath))

/-- A change is not seen from the end of a path that it does not lead through, nor from its own
end. -/
theorem below?_eq_none {path : List String} {c : Change} (h : ¬path <+: c.path ∨ c.path <+: path) :
    c.below? path = none := by
  refine Option.eq_none_iff_forall_ne_some.mpr fun inner hinner => ?_
  obtain ⟨hpath, hne, -⟩ := below?_eq_some_iff.mp hinner
  rcases h with h | h
  · exact h ⟨_, hpath.symm⟩
  · rw [hpath] at h
    have hlength := h.length_le
    rw [List.length_append] at hlength
    exact hne (List.eq_nil_of_length_eq_zero (by omega))

/-- Changes that are seen from the end of a path are made below it. -/
theorem plain_changesBelow {path : List String} {changes : List Change}
    (h : ∀ c ∈ changes, c.Plain) : ∀ c ∈ changesBelow path changes, c.Plain := by
  intro inner hinner
  obtain ⟨c, hc, hbelow⟩ := List.mem_filterMap.mp hinner
  obtain ⟨-, hne, hvalue⟩ := below?_eq_some_iff.mp hbelow
  exact ⟨hne, hvalue ▸ (h c hc).value⟩

section Run

variable {changes : List Change} {v w : Json} (hfree : v.ArrayFree)
  (hplain : ∀ c ∈ changes, c.Plain) (h : v.writeAll changes = .ok w)

include hfree hplain h

/-- Plain changes to a value without arrays leave it without arrays. -/
theorem arrayFree_writeAll : w.ArrayFree := by
  induction changes generalizing v with
  | nil =>
    cases h
    exact hfree
  | cons c changes ih =>
    obtain ⟨hc, hrest⟩ := List.forall_mem_cons.mp hplain
    obtain ⟨u, hu, hw⟩ := writeAll_cons_eq_ok_iff.mp h
    exact ih (arrayFree_write hfree hc.value hc.path_ne hu) hrest hw

/-- What no change leads to, through or from is not touched. -/
theorem at?_writeAll_of_apart {path : List String}
    (hapart : ∀ c ∈ changes, ¬c.path <+: path ∧ ¬path <+: c.path) : w.at? path = v.at? path := by
  induction changes generalizing v with
  | nil =>
    cases h
    rfl
  | cons c changes ih =>
    obtain ⟨hc, hrest⟩ := List.forall_mem_cons.mp hplain
    obtain ⟨⟨hpath, hother⟩, haparts⟩ := List.forall_mem_cons.mp hapart
    obtain ⟨u, hu, hw⟩ := writeAll_cons_eq_ok_iff.mp h
    rw [ih (arrayFree_write hfree hc.value hc.path_ne hu) hrest hw haparts,
      at?_write_of_apart hfree hc.value hc.path_ne hu hpath hother]

/-- Changes that do not replace what is at a path are made in it, seen from there. -/
theorem at?_writeAll {path : List String} {x : Json}
    (hkept : ∀ c ∈ changes, ¬c.path <+: path) (hx : v.at? path = some x) :
    ∃ x', x.writeAll (changesBelow path changes) = .ok x' ∧ w.at? path = some x' := by
  induction changes generalizing v x with
  | nil =>
    cases h
    exact ⟨x, rfl, hx⟩
  | cons c changes ih =>
    obtain ⟨hc, hrest⟩ := List.forall_mem_cons.mp hplain
    obtain ⟨hpath, hpaths⟩ := List.forall_mem_cons.mp hkept
    obtain ⟨u, hu, hw⟩ := writeAll_cons_eq_ok_iff.mp h
    have hnext := arrayFree_write hfree hc.value hc.path_ne hu
    -- A change that leads through the path is made in `x` as well; any other one does not reach it.
    by_cases hthrough : path <+: c.path
    · obtain ⟨rest, heq⟩ := hthrough
      have hne : rest ≠ [] := by
        rintro rfl
        exact hpath (by simp [← heq])
      obtain ⟨x₁, hwrite, hx₁⟩ :=
        at?_write_of_prefix hfree hc.value hc.path_ne hu heq.symm hne hx
      obtain ⟨x', hx', hfound⟩ := ih hnext hrest hw hpaths hx₁
      refine ⟨x', ?_, hfound⟩
      have hbelow : c.below? path = some ⟨rest, c.value⟩ :=
        below?_eq_some_iff.mpr ⟨heq.symm, hne, rfl⟩
      rw [changesBelow, List.filterMap_cons_some hbelow]
      exact writeAll_cons_eq_ok_iff.mpr ⟨x₁, hwrite, hx'⟩
    · rw [← at?_write_of_apart hfree hc.value hc.path_ne hu hpath hthrough] at hx
      rw [changesBelow, List.filterMap_cons_none (below?_eq_none (.inl hthrough))]
      exact ih hnext hrest hw hpaths hx

/-- A value that is no container was there before, or it is part of one that was written. -/
theorem source_of_writeAll {path : List String} {found : Json} (hfound : w.at? path = some found)
    (hleaf : found.IsLeaf) :
    v.at? path = some found ∨
      ∃ c ∈ changes, ∃ rest, path = c.path ++ rest ∧ c.value.at? rest = some found := by
  induction changes generalizing v with
  | nil =>
    cases h
    exact .inl hfound
  | cons c changes ih =>
    obtain ⟨hc, hrest⟩ := List.forall_mem_cons.mp hplain
    obtain ⟨u, hu, hw⟩ := writeAll_cons_eq_ok_iff.mp h
    -- What was there after the first change is part of it, or it was there before.
    rcases ih (arrayFree_write hfree hc.value hc.path_ne hu) hrest hw with hbefore | hlater
    · refine (source_of_write hfree hc.value hc.path_ne hu hbefore hleaf).imp_right fun hpart => ?_
      exact ⟨c, List.mem_cons_self, hpart⟩
    · obtain ⟨c', hc', hpart⟩ := hlater
      exact .inr ⟨c', List.mem_cons_of_mem _ hc', hpart⟩

/-- If outer changes come first, then at the path of a change there is its value, with the changes
made that lead into it. -/
theorem exists_at?_writeAll (horder : OuterFirst changes) {c : Change} (hc : c ∈ changes) :
    ∃ x, c.value.writeAll (changesBelow c.path changes) = .ok x ∧ w.at? c.path = some x := by
  -- The value is there once its change was made, and none of those behind it replaces it.
  obtain ⟨before, after, rfl⟩ := List.append_of_mem hc
  obtain ⟨hbefore, hafter⟩ := List.forall_mem_append.mp hplain
  obtain ⟨-, hlater, hpairs⟩ := List.pairwise_append.mp horder
  obtain ⟨u, hu, hrun⟩ := writeAll_append_eq_ok_iff.mp h
  obtain ⟨u', hu', hw⟩ := writeAll_cons_eq_ok_iff.mp hrun
  obtain ⟨hplainC, hplainAfter⟩ := List.forall_mem_cons.mp hafter
  have hufree := arrayFree_writeAll hfree hbefore hu
  -- Only later changes lead into the value.
  have hbelow : changesBelow c.path (before ++ c :: after) = changesBelow c.path after := by
    have hnone : changesBelow c.path before = [] :=
      List.filterMap_eq_nil_iff.mpr fun c' hc' =>
        below?_eq_none (.inl (hpairs c' hc' c List.mem_cons_self))
    rw [changesBelow, List.filterMap_append, ← changesBelow, hnone, List.nil_append,
      List.filterMap_cons_none (below?_eq_none (.inr (List.prefix_refl _))), changesBelow]
  rw [hbelow]
  exact at?_writeAll (arrayFree_write hufree hplainC.value hplainC.path_ne hu') hplainAfter hw
    (List.pairwise_cons.mp hlater).1 (at?_write hufree hplainC.value hplainC.path_ne hu')

end Run

end ApiCommand.Json
