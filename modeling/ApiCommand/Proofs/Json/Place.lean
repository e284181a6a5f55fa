import ApiCommand.Json.Pointer
import ApiCommand.Proofs.Dict

/-!
# Places in values

A value is a tree of containers, and a place in it is the list of the steps that lead there. An item
that is put at a place is found there (`node?_putAt`), and what is neither on the way nor below its
end is not touched (`node?_putAt_of_apart`).
-/

namespace ApiCommand.Json

/-- The value is no container. -/
def IsLeaf (v : Json) : Prop :=
  match v with
  | array _ | object _ => False
  | _ => True

/-- What holds of a container if it holds of all that is directly in it holds of all values. -/
@[elab_as_elim]
theorem inductionOnParts {motive : Json → Prop} (v : Json) (leaf : ∀ v, v.IsLeaf → motive v)
    (array : ∀ items, (∀ item ∈ items, motive item) → motive (array items))
    (object : ∀ members : List (String × Json), (∀ e ∈ members, motive e.2) →
      motive (object members)) : motive v := by
  match v with
  | null => exact leaf null trivial
  | bool b => exact leaf (bool b) trivial
  | number n => exact leaf (number n) trivial
  | string text => exact leaf (string text) trivial
  | .array items =>
    exact array items fun item hitem => inductionOnParts item leaf array object
  | .object members =>
    exact object members fun e he => inductionOnParts e.2 leaf array object
termination_by sizeOf v
-- What is in a container is smaller than the container.
decreasing_by
  · have hlt := List.sizeOf_lt_of_mem hitem
    simp only [Json.array.sizeOf_spec]
    omega
  · have hlt := List.sizeOf_lt_of_mem he
    have hpair : sizeOf e = 1 + sizeOf e.1 + sizeOf e.2 := rfl
    simp only [Json.object.sizeOf_spec]
    omega

/-- A step from a container to a value directly in it. -/
inductive Step where
  /-- To the value of a member. -/
  | member (key : String)
  /-- To an item. -/
  | item (index : Nat)
  deriving DecidableEq

/-- The token of a pointer for the step. -/
def Step.token (step : Step) : String :=
  match step with
  | .member key => key
  | .item index => toString index

/-- The value one step inside of a value. -/
def child? (v : Json) (s : Step) : Option Json :=
  match v, s with
  | object members, .member key => Dict.get? members key
  | array items, .item index => items[index]?
  | _, _ => none

/-- The value one step inside of a value, or an object to be put there. -/
def childD (v : Json) (s : Step) : Json := (v.child? s).getD emptyObject

/-- The node at a place. -/
def node? (place : List Step) (v : Json) : Option Json :=
  match place with
  | [] => some v
  | s :: place => (v.child? s).bind (node? place)

/-- The node at a place, or an object to be put there. -/
def nodeD (v : Json) (place : List Step) : Json := (v.node? place).getD emptyObject

/-- A value can be put at the end of the step: into an object anywhere, into an array in the place
of an item or behind the last one. -/
def Takes (v : Json) (s : Step) : Prop :=
  match v, s with
  | object _, .member _ => True
  | array items, .item index => index ≤ items.length
  | _, _ => False

/-- Puts a value one step inside of a container. -/
def putChild (v : Json) (s : Step) (inner : Json) : Json :=
  match v, s with
  | object members, .member key => object (Dict.insert members key inner)
  | array items, .item index => array (putItem items index inner)
  | v, _ => v

/-- Every step of the place can be taken, through objects where nothing is there yet. -/
def Admits (place : List Step) (v : Json) : Prop :=
  match place with
  | [] => True
  | s :: place => v.Takes s ∧ (v.childD s).Admits place

/-- Puts an item at a place, through objects where nothing is there yet. -/
def putAt (v : Json) (place : List Step) (item : Json) : Json :=
  match place with
  | [] => item
  | s :: place => v.putChild s ((v.childD s).putAt place item)

/-! ## One step -/

/-- Putting an item changes the array at its index only. -/
theorem getElem?_putItem {items : List Json} {index : Nat} (h : index ≤ items.length) (item : Json)
    (other : Nat) :
    (putItem items index item)[other]? = if index = other then some item else items[other]? := by
  unfold putItem
  split
  next hlt =>
    rw [List.getElem?_set]
    split <;> rfl
  next hge =>
    -- The item is appended: it alone is new, and it is behind all others.
    obtain rfl : index = items.length := Nat.le_antisymm h (Nat.not_lt.mp hge)
    split
    next heq => rw [← heq, List.getElem?_concat_length]
    next hne =>
      rcases Nat.lt_or_ge other items.length with hlt | hge
      · exact List.getElem?_append_left hlt
      · rw [List.getElem?_append_right hge, List.getElem?_eq_none hge]
        exact List.getElem?_eq_none (by rw [List.length_singleton]; omega)

/-- Putting an item does not make an array shorter. -/
theorem length_le_putItem (items : List Json) (index : Nat) (item : Json) :
    items.length ≤ (putItem items index item).length := by
  unfold putItem
  split <;> simp

/-- What was put one step inside of a container is there, and nothing else changes. -/
theorem child?_putChild {v : Json} {s : Step} (h : v.Takes s) (inner : Json) (other : Step) :
    (v.putChild s inner).child? other = if s = other then some inner else v.child? other := by
  cases v <;> cases s <;> try exact h.elim
  case array.item items index =>
    cases other with
    | member key => simp [putChild, child?]
    | item other =>
      simpa only [putChild, child?, Step.item.injEq] using getElem?_putItem h inner other
  case object.member members key =>
    cases other with
    | member other =>
      simpa only [putChild, child?, Step.member.injEq] using
        Dict.get?_insert members key other inner
    | item other => simp [putChild, child?]

/-- A step that leads somewhere can be taken. -/
theorem takes_of_child? {v inner : Json} {s : Step} (h : v.child? s = some inner) : v.Takes s := by
  cases v <;> cases s <;> try cases h
  case array.item items index =>
    exact Nat.le_of_lt (List.getElem?_eq_some_iff.mp h).1
  case object.member => exact trivial

theorem childD_of_child? {v inner : Json} {s : Step} (h : v.child? s = some inner) :
    v.childD s = inner := by
  rw [childD, h, Option.getD_some]

theorem childD_of_none {v : Json} {s : Step} (h : v.child? s = none) :
    v.childD s = emptyObject := by
  rw [childD, h, Option.getD_none]

@[simp]
theorem child?_emptyObject (s : Step) : emptyObject.child? s = none := by
  cases s <;> rfl

/-- What was put at a step is found there. -/
theorem childD_putChild {v : Json} {s : Step} (h : v.Takes s) (inner : Json) :
    (v.putChild s inner).childD s = inner :=
  childD_of_child? (by rw [child?_putChild h, if_pos rfl])

/-- Putting a second value at the same place forgets the first. -/
theorem putItem_putItem {items : List Json} {index : Nat} (h : index ≤ items.length)
    (first second : Json) :
    putItem (putItem items index first) index second = putItem items index second := by
  refine List.ext_getElem? fun other => ?_
  have hgrown : index ≤ (putItem items index first).length :=
    Nat.le_trans h (length_le_putItem items index first)
  rw [getElem?_putItem hgrown, getElem?_putItem h, getElem?_putItem h]
  split <;> rfl

/-- Of two values put at the same step, the second one stays. -/
theorem putChild_putChild {v : Json} {s : Step} (h : v.Takes s) (first second : Json) :
    (v.putChild s first).putChild s second = v.putChild s second := by
  cases v <;> cases s <;> try exact h.elim
  case array.item => exact congrArg array (putItem_putItem h first second)
  case object.member members key =>
    exact congrArg object (Dict.insert_insert members key first second)

/-! ## Places -/

/-- A place can be reached in two parts. -/
theorem node?_append (place rest : List Step) (v : Json) :
    v.node? (place ++ rest) = (v.node? place).bind (node? rest) := by
  induction place generalizing v with
  | nil => rfl
  | cons s place ih =>
    rw [List.cons_append, node?, node?, Option.bind_assoc]
    exact congrArg _ (funext ih)

/-- There is nothing in an object that is still to be put somewhere. -/
theorem node?_childD (v : Json) (s : Step) {place : List Step} (h : place ≠ []) :
    (v.childD s).node? place = v.node? (s :: place) := by
  rw [node?]
  cases hchild : v.child? s with
  | some inner => rw [childD_of_child? hchild, Option.bind_some]
  | none =>
    obtain ⟨s', place, rfl⟩ := List.exists_cons_of_ne_nil h
    rw [childD_of_none hchild, node?, child?_emptyObject, Option.bind_none, Option.bind_none]

@[simp]
theorem nodeD_nil (v : Json) : v.nodeD [] = v := rfl

theorem nodeD_cons (v : Json) (s : Step) (place : List Step) :
    v.nodeD (s :: place) = (v.childD s).nodeD place := by
  cases place with
  | nil =>
    cases hchild : v.child? s with
    | none => simp [nodeD, node?, childD, hchild]
    | some inner => simp [nodeD, node?, childD, hchild]
  | cons s' place => rw [nodeD, nodeD, node?_childD v s (List.cons_ne_nil _ _)]

/-- The same goes for places that are still to be made. -/
theorem nodeD_append (v : Json) (place rest : List Step) :
    v.nodeD (place ++ rest) = (v.nodeD place).nodeD rest := by
  induction place generalizing v with
  | nil => rfl
  | cons s place ih => rw [List.cons_append, nodeD_cons, nodeD_cons, ih]

theorem nodeD_of_node? {v inner : Json} {place : List Step} (h : v.node? place = some inner) :
    v.nodeD place = inner := by
  rw [nodeD, h, Option.getD_some]

/-- Taking the steps of a place that goes on is taking those to a node on the way and then those
from there. -/
theorem admits_append {v : Json} {place rest : List Step} :
    v.Admits (place ++ rest) ↔ v.Admits place ∧ (v.nodeD place).Admits rest := by
  induction place generalizing v with
  | nil => exact ⟨fun h => ⟨trivial, h⟩, And.right⟩
  | cons s place ih => rw [List.cons_append, Admits, Admits, ih, nodeD_cons, and_assoc]

/-- The steps to a node can be taken. -/
theorem admits_of_node? {v inner : Json} {place : List Step} (h : v.node? place = some inner) :
    v.Admits place := by
  induction place generalizing v with
  | nil => exact trivial
  | cons s place ih =>
    obtain ⟨child, hchild, hnode⟩ := Option.bind_eq_some_iff.mp h
    exact ⟨takes_of_child? hchild, by rw [childD_of_child? hchild]; exact ih hnode⟩

/-- Putting an item at a place that goes on is putting, at a node on the way, what is there with the
item at the rest of the place. -/
theorem putAt_append (v : Json) (place rest : List Step) (item : Json) :
    v.putAt (place ++ rest) item = v.putAt place ((v.nodeD place).putAt rest item) := by
  induction place generalizing v with
  | nil => rfl
  | cons s place ih => rw [List.cons_append, putAt, putAt, ih, nodeD_cons]

section Putting

variable {place : List Step} {v : Json} (h : v.Admits place)

include h

/-- An item that was put at a place is found there. -/
theorem node?_putAt (item : Json) : (v.putAt place item).node? place = some item := by
  induction place generalizing v with
  | nil => rfl
  | cons s place ih =>
    obtain ⟨htakes, hrest⟩ := h
    rw [putAt, node?, child?_putChild htakes, if_pos rfl, Option.bind_some, ih hrest]

/-- Of two items put at one place the later replaces the other. -/
theorem putAt_putAt (first second : Json) :
    (v.putAt place first).putAt place second = v.putAt place second := by
  induction place generalizing v with
  | nil => rfl
  | cons s place ih =>
    obtain ⟨htakes, hrest⟩ := h
    rw [putAt, putAt, childD_putChild htakes, putChild_putChild htakes, ih hrest]
    rfl

/-- What is neither on the way to the item nor below it is what it was. -/
theorem node?_putAt_of_apart {other : List Step} (hother : ¬place <+: other)
    (hplace : ¬other <+: place) (item : Json) :
    (v.putAt place item).node? other = v.node? other := by
  induction place generalizing v other with
  | nil => exact absurd List.nil_prefix hother
  | cons s place ih =>
    obtain ⟨htakes, hrest⟩ := h
    cases other with
    | nil => exact absurd List.nil_prefix hplace
    | cons s' other =>
      rw [putAt, node?, node?, child?_putChild htakes]
      split
      next heq =>
        -- The two places part later, so `other` goes on behind this step.
        subst heq
        rw [List.prefix_cons_inj] at hother hplace
        have hne : other ≠ [] := fun hnil => hplace (hnil ▸ List.nil_prefix)
        rw [Option.bind_some, ih hrest hother hplace, node?_childD v s hne, node?]
      next => rfl

end Putting

/-- A container on the way to an item is what it was but for one step. -/
theorem exists_node?_putAt {v : Json} {place rest : List Step} {s : Step}
    (h : v.Admits (place ++ s :: rest)) (item : Json) :
    (v.nodeD place).Takes s ∧ ∃ inner,
      (v.putAt (place ++ s :: rest) item).node? place =
        some ((v.nodeD place).putChild s inner) := by
  obtain ⟨hplace, htakes, -⟩ := admits_append.mp h
  refine ⟨htakes, ((v.nodeD place).childD s).putAt rest item, ?_⟩
  rw [putAt_append, node?_putAt hplace, putAt]

/-! ## What putting an item changes -/

/-- The value `w` is `v` with the item at the end of the way, and nothing else was touched. -/
structure Written (v : Json) (way : List Step) (item w : Json) : Prop where
  /-- The item is at the end of the way. -/
  item : w.node? way = some item
  /-- What is neither on the way nor below its end is as it was, and nothing new is there. -/
  apart : ∀ place, ¬way <+: place → ¬place <+: way → w.node? place = v.node? place
  /-- Where there was nothing on the way, there is an object with no member but the one that the
  way goes on through. -/
  created : ∀ place s rest, way = place ++ s :: rest → v.node? place = none →
    ∃ key inner, s = .member key ∧ w.node? place = some (object [(key, inner)])
  /-- An array that is not below the end of the way has the items that it had, each at its index,
  except for the one that the way goes on through. -/
  array : ∀ place items, v.node? place = some (array items) → ¬way <+: place →
    ∃ items', w.node? place = some (array items') ∧ items.length ≤ items'.length ∧
      ∀ index < items.length, ¬place ++ [.item index] <+: way → items'[index]? = items[index]?

/-- A container that is created on the way is an object. -/
theorem putChild_emptyObject {s : Step} (h : emptyObject.Takes s) (inner : Json) :
    ∃ key, s = .member key ∧ emptyObject.putChild s inner = object [(key, inner)] := by
  cases s with
  | member key => exact ⟨key, rfl, rfl⟩
  | item index => exact h.elim

/-- An item that is put at a place that admits it is written there, and nothing else is touched. -/
theorem written_putAt {v : Json} {way : List Step} (h : v.Admits way) (item : Json) :
    v.Written way item (v.putAt way item) where
  item := node?_putAt h item
  apart := fun _ hway hplace => node?_putAt_of_apart h hway hplace item
  created := by
    rintro place s rest rfl hnone
    obtain ⟨htakes, inner, hnode⟩ := exists_node?_putAt h item
    -- Only an object is ever created, and only its member on the way was put.
    have hempty : v.nodeD place = emptyObject := by rw [nodeD, hnone, Option.getD_none]
    rw [hempty] at htakes hnode
    obtain ⟨key, hkey, hput⟩ := putChild_emptyObject htakes inner
    exact ⟨key, inner, hkey, hnode.trans (congrArg some hput)⟩
  array := by
    intro place items harray hbelow
    -- An array on the way takes one item, one beside the way is not touched.
    by_cases hon : place <+: way
    · obtain ⟨_ | ⟨s, rest⟩, rfl⟩ := hon
      · exact absurd (by simp) hbelow
      obtain ⟨htakes, inner, hnode⟩ := exists_node?_putAt h item
      rw [nodeD_of_node? harray] at htakes hnode
      cases s with
      | member key => exact htakes.elim
      | item index =>
        refine ⟨putItem items index inner, hnode, length_le_putItem items index inner, ?_⟩
        intro other hother hnot
        have hne : index ≠ other := by
          rintro rfl
          exact hnot ⟨rest, List.append_assoc _ _ _⟩
        rw [getElem?_putItem htakes, if_neg hne]
    · refine ⟨items, ?_, Nat.le_refl _, fun _ _ _ => rfl⟩
      rw [node?_putAt_of_apart h hbelow hon, harray]

end ApiCommand.Json
