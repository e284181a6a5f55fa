import ApiCommand.Proofs.Json.Way

/-!
# Writing in place

A document can be changed on the way to where an item is written: what is missing is put there
before the tokens behind it are looked at. This comes to the same as writing into a copy
(`Cursor.run_eq`). A container that was put into the document takes every token that follows, so
writing that fails has not put any.
-/

namespace ApiCommand

open Json

/-- A document and the node of it that has been reached. -/
structure Cursor where
  document : Json
  place : List Step
  node : Json
  node?_place : document.node? place = some node

namespace Cursor

/-- The cursor at the whole document. -/
def start (v : Json) : Cursor where
  document := v
  place := []
  node := v
  node?_place := rfl

/-- Every step that the node takes leads on from the place of the node. -/
theorem admits_concat (c : Cursor) {s : Step} (h : c.node.Takes s) :
    c.document.Admits (c.place ++ [s]) := by
  rw [admits_append, nodeD_of_node? c.node?_place]
  exact ⟨admits_of_node? c.node?_place, h, trivial⟩

/-- Goes one step down. Where there is nothing, an object is put. -/
def enter (c : Cursor) (s : Step) (h : c.node.Takes s) : Cursor :=
  match hchild : c.node.child? s with
  | some inner =>
    { document := c.document
      place := c.place ++ [s]
      node := inner
      node?_place := by rw [node?_append, c.node?_place, Option.bind_some, node?, hchild]; rfl }
  | none =>
    { document := c.document.putAt (c.place ++ [s]) emptyObject
      place := c.place ++ [s]
      node := emptyObject
      node?_place := node?_putAt (c.admits_concat h) emptyObject }

/-- Goes down at a token. -/
def descend (c : Cursor) (token : String) : Except Pointer.Obstacle Cursor :=
  match h : c.node.stepIn .cannotDescend token with
  | .ok s => .ok (c.enter s (stepIn_eq_ok_iff.mp h).takes)
  | .error o => .error o

/-- Goes down at all tokens but the last, and puts the item at the last one. The result is the
document as it is at the end, with the obstacle if there was one. -/
def run (c : Cursor) (token : String) (tokens : List String) (item : Json) :
    Json × Option Pointer.Obstacle :=
  match tokens with
  | [] =>
    match c.node.stepIn .cannotSet token with
    | .ok s => (c.document.putAt (c.place ++ [s]) item, none)
    | .error o => (c.document, some o)
  | next :: tokens =>
    match c.descend token with
    | .ok c => c.run next tokens item
    | .error o => (c.document, some o)

/-! ## One token -/

/-- One step down is the value inside, or an object where there is nothing. -/
theorem node_enter {c : Cursor} {s : Step} (h : c.node.Takes s) :
    (c.enter s h).node = c.node.childD s := by
  unfold enter
  split
  next inner hchild => exact (childD_of_child? hchild).symm
  next hchild => exact (childD_of_none hchild).symm

/-- Going down changes nothing, or it leads to an object that has been created. -/
theorem document_enter {c : Cursor} {s : Step} (h : c.node.Takes s) :
    (c.enter s h).document = c.document ∨ (c.enter s h).node = emptyObject := by
  unfold enter
  split
  next => exact .inl rfl
  next => exact .inr rfl

/-- What is put at the new place is put into the document as it was. -/
theorem putAt_document_enter {c : Cursor} {s : Step} (h : c.node.Takes s) (item : Json) :
    (c.enter s h).document.putAt (c.enter s h).place item =
      c.document.putAt (c.place ++ [s]) item := by
  unfold enter
  split
  next => rfl
  next => exact putAt_putAt (c.admits_concat h) emptyObject item

/-- An item that is put below the next node is put below this one with one step more. -/
theorem putAt_document_enter_append {c : Cursor} {s : Step} (h : c.node.Takes s)
    (rest : List Step) (item : Json) :
    (c.enter s h).document.putAt ((c.enter s h).place ++ rest) item =
      c.document.putAt (c.place ++ s :: rest) item := by
  have hnode : c.document.nodeD (c.place ++ [s]) = c.node.childD s := by
    rw [nodeD_append, nodeD_of_node? c.node?_place, nodeD_cons, nodeD_nil]
  rw [putAt_append, nodeD_of_node? (c.enter s h).node?_place, node_enter, putAt_document_enter,
    ← hnode, ← putAt_append, List.append_assoc, List.singleton_append]

/-- A token that leads somewhere takes the cursor there. -/
theorem descend_of_stepIn {c : Cursor} {token : String} {s : Step}
    (h : c.node.stepIn .cannotDescend token = .ok s) :
    c.descend token = .ok (c.enter s (stepIn_eq_ok_iff.mp h).takes) := by
  unfold descend
  split
  next s' h' =>
    cases h.symm.trans h'
    rfl
  next o h' => cases h.symm.trans h'

/-- A token that is refused stops the cursor with the same obstacle. -/
theorem descend_of_error {c : Cursor} {token : String} {o : Pointer.Obstacle}
    (h : c.node.stepIn .cannotDescend token = .error o) : c.descend token = .error o := by
  unfold descend
  split
  next s h' => cases h.symm.trans h'
  next o' h' =>
    cases h.symm.trans h'
    rfl

/-! ## All tokens -/

/-- Writing in place puts the item at the end of the way. If there is no way, the document is what
it was. -/
theorem run_eq (c : Cursor) (token : String) (tokens : List String) (item : Json) :
    c.run token tokens item =
      match c.node.way token tokens with
      | .ok way => (c.document.putAt (c.place ++ way) item, none)
      | .error o => (c.document, some o) := by
  induction tokens generalizing c token with
  | nil =>
    rw [run, way]
    cases c.node.stepIn .cannotSet token <;> rfl
  | cons next tokens ih =>
    rw [run, way]
    cases hstep : c.node.stepIn .cannotDescend token with
    | error o =>
      rw [descend_of_error hstep]
      rfl
    | ok s =>
      have htakes := (stepIn_eq_ok_iff.mp hstep).takes
      rw [descend_of_stepIn hstep]
      show (c.enter s htakes).run next tokens item = _
      rw [ih, node_enter, Except.bind]
      cases hrest : (c.node.childD s).way next tokens with
      | ok rest => exact congrArg (·, none) (putAt_document_enter_append htakes rest item)
      | error o =>
        -- A created object lets all tokens pass, so none has been created.
        refine congrArg (·, some o) ((document_enter htakes).resolve_right fun hcreated => ?_)
        rw [← node_enter htakes, hcreated] at hrest
        obtain ⟨way, hway⟩ := exists_follows_iff.mpr (not_blocks_emptyObject (next :: tokens))
        cases (way_eq_ok_iff.mpr hway).symm.trans hrest

end Cursor

namespace Json

/-- Writes an item into the document itself. -/
def writeInPlace (v : Json) (token : String) (tokens : List String) (item : Json) :
    Json × Option Pointer.Obstacle :=
  (Cursor.start v).run token tokens item

/-- Writing in place gives what writing gives, and leaves the document as it was if that fails. -/
theorem writeInPlace_eq (v : Json) (token : String) (tokens : List String) (item : Json) :
    v.writeInPlace token tokens item =
      match v.write (token :: tokens) item with
      | .ok w => (w, none)
      | .error o => (v, some o) := by
  rw [writeInPlace, Cursor.run_eq, write_cons]
  show (match v.way token tokens with
    | .ok way => (v.putAt way item, none)
    | .error o => (v, some o)) = _
  cases v.way token tokens <;> rfl

/-- Writing at a pointer fails exactly if its tokens lead, through what is there, to a value that
refuses the next one. Tokens behind something that is missing are never refused, so writing in place
fails before it has changed anything. If it does not fail, the item is at the end of the way, and
nothing else is new or different but the objects that lead to it. -/
theorem write_frame (v : Json) (token : String) (tokens : List String) (item : Json) :
    ((∃ o, v.write (token :: tokens) item = .error o) ↔ v.Blocks (token :: tokens)) ∧
      (∀ done rest place, token :: tokens = done ++ rest → v.Follows done place →
        v.node? place = none → ∃ w, v.write (token :: tokens) item = .ok w) ∧
      (∀ o, v.write (token :: tokens) item = .error o →
        v.writeInPlace token tokens item = (v, some o)) ∧
      ∀ w, v.write (token :: tokens) item = .ok w →
        v.writeInPlace token tokens item = (w, none) ∧
          ∃ way, v.Follows (token :: tokens) way ∧ v.Written way item w := by
  refine ⟨exists_write_eq_error_iff, ?_, ?_, ?_⟩
  · intro done rest place heq hdone hnone
    -- Nothing blocks behind a node that is not there.
    have hfree := hdone.not_blocks_append hnone rest
    rw [← heq, ← exists_follows_iff] at hfree
    obtain ⟨way, hway⟩ := hfree
    exact ⟨v.putAt way item, write_eq_ok_iff.mpr ⟨way, hway, rfl⟩⟩
  · intro o ho
    rw [writeInPlace_eq, ho]
  · intro w hw
    refine ⟨by rw [writeInPlace_eq, hw], ?_⟩
    obtain ⟨way, hway, rfl⟩ := write_eq_ok_iff.mp hw
    exact ⟨way, hway, written_putAt hway.admits item⟩

end Json

end ApiCommand
