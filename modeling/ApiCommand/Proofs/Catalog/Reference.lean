import ApiCommand.Catalog.Text
import ApiCommand.Proofs.Json.PointerText
import ApiCommand.Proofs.Text.Split
import Mathlib

/-!
# Finding operations

A document is refused exactly if two of its operations share an identifier or a name
(`checked_eq_error_iff`). In the catalog of any other document, the name, the identifier and a
reference to the identifier all lead to the one operation that has them, and a reference to a path
and a method leads to the first operation that has both (`found_of_parse`). Escaping makes this hold
of all identifiers, paths and methods, whatever characters they have.
-/

namespace ApiCommand

/-! ## The check of a document -/

namespace CatalogDocument

/-- Neither the identifier nor the name of an operation is that of the other one. -/
def Differ (o p : OperationSpec) : Prop := o.id ≠ p.id ∧ o.effectiveName ≠ p.effectiveName

/-- Two operations of the document share an identifier or a name. -/
def Repeats (d : CatalogDocument) : Prop :=
  ∃ (i j : Nat) (o p : OperationSpec), i < j ∧ d.operations[i]? = some o ∧
    d.operations[j]? = some p ∧ (o.id = p.id ∨ o.effectiveName = p.effectiveName)

/-- No fault is found if the operations differ from each other and from those seen before. -/
theorem firstRepetition?_eq_none_iff {ids names : List String} {operations : List OperationSpec} :
    firstRepetition? ids names operations = none ↔
      (∀ o ∈ operations, o.id ∉ ids ∧ o.effectiveName ∉ names) ∧
        operations.Pairwise Differ := by
  induction operations generalizing ids names with
  | nil => simp [firstRepetition?]
  | cons o rest ih =>
    rw [firstRepetition?, List.forall_mem_cons, List.pairwise_cons]
    split
    next hid => simp_all
    next hid =>
      split
      next hname => simp_all
      next hname =>
        rw [ih]
        simp only [List.contains_iff_mem] at hid hname
        simp only [List.mem_cons, not_or, Differ, hid, hname, not_false_eq_true, and_self,
          true_and, ne_eq, @eq_comm _ o.id, @eq_comm _ o.effectiveName]
        -- What is new of a later operation is that it differs from this one.
        constructor
        · rintro ⟨hrest, hpairwise⟩
          exact ⟨fun p hp => ⟨(hrest p hp).1.2, (hrest p hp).2.2⟩,
            fun p hp => ⟨(hrest p hp).1.1, (hrest p hp).2.1⟩, hpairwise⟩
        · rintro ⟨hrest, hdiffer, hpairwise⟩
          exact ⟨fun p hp => ⟨⟨(hdiffer p hp).1, (hrest p hp).1⟩,
            (hdiffer p hp).2, (hrest p hp).2⟩, hpairwise⟩

/-- That operations differ pairwise is to say that no identifier or name repeats. -/
theorem pairwise_differ_iff (d : CatalogDocument) : d.operations.Pairwise Differ ↔ ¬d.Repeats := by
  rw [List.pairwise_iff_getElem]
  constructor
  · rintro h ⟨i, j, o, p, hij, hi, hj, hshared⟩
    obtain ⟨hilt, rfl⟩ := List.getElem?_eq_some_iff.mp hi
    obtain ⟨hjlt, rfl⟩ := List.getElem?_eq_some_iff.mp hj
    have hdiffer := h i j hilt hjlt hij
    exact hshared.elim hdiffer.1 hdiffer.2
  · intro h i j hi hj hij
    refine ⟨fun hid => h ?_, fun hname => h ?_⟩
    · exact ⟨i, j, _, _, hij, List.getElem?_eq_getElem hi, List.getElem?_eq_getElem hj, .inl hid⟩
    · exact ⟨i, j, _, _, hij, List.getElem?_eq_getElem hi, List.getElem?_eq_getElem hj, .inr hname⟩

/-- A document is accepted as it is, exactly if nothing repeats. -/
theorem checked_eq_ok_iff {d accepted : CatalogDocument} :
    d.checked = .ok accepted ↔ ¬d.Repeats ∧ accepted = d := by
  have hnone := @firstRepetition?_eq_none_iff [] [] d.operations
  rw [pairwise_differ_iff] at hnone
  unfold checked
  cases hfirst : firstRepetition? [] [] d.operations with
  | none =>
    have hd : ¬d.Repeats := (hnone.mp hfirst).2
    simp [hd, eq_comm]
  | some f =>
    have hd : d.Repeats := by
      by_contra hd
      rw [hnone.mpr ⟨by simp, hd⟩] at hfirst
      cases hfirst
    simp [hd]

/-- A document is refused exactly if two of its operations share an identifier or a name. -/
theorem checked_eq_error_iff {d : CatalogDocument} : (∃ f, d.checked = .error f) ↔ d.Repeats := by
  cases hchecked : d.checked with
  | error f =>
    simp only [Except.error.injEq, exists_eq', true_iff]
    by_contra hd
    rw [checked_eq_ok_iff.mpr ⟨hd, rfl⟩] at hchecked
    cases hchecked
  | ok accepted => simpa using (checked_eq_ok_iff.mp hchecked).1

end CatalogDocument

/-! ## Looking up -/

/-- The operation has the path and, up to the case of ASCII letters, the method. -/
def Operation.IsAt (op : Operation) (path method : String) : Prop :=
  op.path = path ∧ Text.asciiLower op.method = Text.asciiLower method

namespace Catalog

variable {c : Catalog}

/-- No two operations of the catalog share an identifier or a name. -/
structure Distinct (c : Catalog) : Prop where
  ids : (c.operations.map Operation.id).Nodup
  names : (c.operations.map Operation.name).Nodup

/-- The operation is the first one of the catalog with the path and the method. -/
def IsFirst (c : Catalog) (path method : String) (op : Operation) : Prop :=
  op.IsAt path method ∧ ∃ before after, c.operations = before ++ op :: after ∧
    ∀ earlier ∈ before, ¬earlier.IsAt path method

/-- The identifiers and names in the catalog are those that the check was about. -/
theorem distinct_ofDocument {d : CatalogDocument} (h : ¬d.Repeats) : (ofDocument d).Distinct := by
  have hdiffer := (CatalogDocument.pairwise_differ_iff d).mpr h
  refine ⟨List.pairwise_map.mpr (List.pairwise_map.mpr ?_),
    List.pairwise_map.mpr (List.pairwise_map.mpr ?_)⟩
  · exact hdiffer.imp And.left
  · exact hdiffer.imp And.right

/-- An operation is found by what it shares with no other one. -/
theorem find?_eq_some_of_nodup {operations : List Operation} {key : Operation → String}
    (h : (operations.map key).Nodup) {op : Operation} (hop : op ∈ operations) :
    (operations.find? fun other => key other == key op) = some op := by
  obtain ⟨found, hfound⟩ : ∃ found, (operations.find? fun other => key other == key op) =
      some found :=
    Option.isSome_iff_exists.mp (List.find?_isSome.mpr ⟨op, hop, beq_self_eq_true (key op)⟩)
  have hkey : key found = key op := by simpa using List.find?_some hfound
  rw [hfound, List.inj_on_of_nodup_map h (List.mem_of_find?_eq_some hfound) hop hkey]

/-- An operation is found by its identifier. -/
theorem Distinct.byId?_id (h : c.Distinct) {op : Operation} (hop : op ∈ c.operations) :
    c.byId? op.id = some op := find?_eq_some_of_nodup h.ids hop

/-- An operation is found by the name of its command. -/
theorem Distinct.operation?_name (h : c.Distinct) {op : Operation} (hop : op ∈ c.operations) :
    c.operation? op.name = some op := by
  rw [operation?, find?_eq_some_of_nodup h.names hop, Option.some_or]

/-- What is found by path and method is the first operation there, and it is found if there is one.
-/
theorem byPath?_eq_some_iff {path method : String} {op : Operation} :
    c.byPath? path method = some op ↔ c.IsFirst path method op := by
  simp [byPath?, List.find?_eq_some_iff_append, IsFirst, Operation.IsAt, Text.sameAscii,
    ← not_and_or]

/-- The pointer in a reference is what follows the address of a document. -/
theorem fragment_append {address : String} (h : '#' ∉ address.toList) (pointer : String) :
    fragment (address ++ "#" ++ pointer) = pointer := by
  have hcut : Text.cutText '#' (address ++ "#" ++ pointer) = some (address, pointer) :=
    Text.cutText_append h pointer
  rw [fragment, hcut]

/-- A reference to an identifier leads to the operation that has it. -/
theorem byReference?_operations {address : String} (h : '#' ∉ address.toList) (id : String) :
    c.byReference? (address ++ "#/operations/" ++ Pointer.escape id) = c.byId? id := by
  have htext : address ++ "#/operations/" ++ Pointer.escape id =
      address ++ "#" ++ Pointer.text ["operations", id] := by
    apply String.toList_inj.mp
    simp [Pointer.escape, Pointer.text, Pointer.escapeChars]
  rw [htext, byReference?, fragment_append h, Pointer.parse?_text]
  rfl

/-- A reference to a path and a method leads to the first operation that has both. -/
theorem byReference?_paths {address : String} (h : '#' ∉ address.toList) (path method : String) :
    c.byReference? (address ++ "#/paths/" ++ Pointer.escape path ++ "/" ++ Pointer.escape method) =
      c.byPath? path method := by
  have htext : address ++ "#/paths/" ++ Pointer.escape path ++ "/" ++ Pointer.escape method =
      address ++ "#" ++ Pointer.text ["paths", path, method] := by
    apply String.toList_inj.mp
    simp [Pointer.escape, Pointer.text, Pointer.escapeChars]
  rw [htext, byReference?, fragment_append h, Pointer.parse?_text]
  rfl

/-- A catalog that is written down is refused exactly if two of its operations share an identifier
or a name. Otherwise each operation is found by its name, its identifier, and a reference to the
identifier in any document. A reference to its path and a method finds the first operation that has
both, and nothing if there is none. -/
theorem found_of_parse {text : String} {d : CatalogDocument}
    (hd : CatalogDocument.ofText? text = some d) :
    ((∃ e, CatalogDocument.parse text = .error e) ↔ d.Repeats) ∧
    ∀ accepted, CatalogDocument.parse text = .ok accepted → accepted = d ∧
      ∀ op ∈ (ofDocument accepted).operations,
        (ofDocument accepted).operation? op.name = some op ∧
        (ofDocument accepted).byId? op.id = some op ∧
        ∀ address : String, '#' ∉ address.toList →
          (ofDocument accepted).byReference?
            (address ++ "#/operations/" ++ Pointer.escape op.id) = some op ∧
          ∀ method found,
            (ofDocument accepted).byReference?
              (address ++ "#/paths/" ++ Pointer.escape op.path ++ "/" ++ Pointer.escape method) =
                some found ↔ (ofDocument accepted).IsFirst op.path method found := by
  have hparse : CatalogDocument.parse text = d.checked.mapError Error.fault := by
    rw [CatalogDocument.parse, hd]
  rw [hparse]
  -- Only repetitions are checked.
  constructor
  · rw [← CatalogDocument.checked_eq_error_iff]
    cases d.checked <;> simp [Except.mapError]
  · intro accepted haccepted
    -- A document that is accepted is not changed.
    have hchecked : d.checked = .ok accepted := by
      cases hchecked : d.checked <;> simp_all [Except.mapError]
    obtain ⟨hrepeats, rfl⟩ := CatalogDocument.checked_eq_ok_iff.mp hchecked
    have hdistinct := distinct_ofDocument hrepeats
    refine ⟨rfl, fun op hop => ⟨hdistinct.operation?_name hop, hdistinct.byId?_id hop,
      fun address haddress => ⟨?_, fun method found => ?_⟩⟩⟩
    · rw [byReference?_operations haddress, hdistinct.byId?_id hop]
    · rw [byReference?_paths haddress, byPath?_eq_some_iff]

/-- A catalog with an identifier and a path that have to be escaped. -/
def filesText : String :=
  "name: files\noperations:\n" ++
    "- id: 'a/b~c#d'\n  method: get\n  path: '/files/{id}~v#1'\n" ++
    "- id: putFile\n  method: put\n  path: '/files/{id}~v#1'\n"

/-- The catalog as a document. -/
def files : CatalogDocument :=
  { name := "files", extensionPrefix := "x-relay"
    operations := [
      { id := "a/b~c#d", method := "get", path := "/files/{id}~v#1" },
      { id := "putFile", method := "put", path := "/files/{id}~v#1" }] }

/-- The first operation is found by its name, which follows from its identifier, and by the escaped
identifier; the second one by the path and its method in another case. -/
theorem found_of_parse_files :
    ∃ op other, CatalogDocument.ofText? filesText = some files ∧
      CatalogDocument.parse filesText = .ok files ∧
      (ofDocument files).operations = [op, other] ∧ op.id = "a/b~c#d" ∧ other.id = "putFile" ∧
      (ofDocument files).operation? "a-b-c-d" = some op ∧
      (ofDocument files).byReference? "files.yaml#/operations/a~1b~0c#d" = some op ∧
      (ofDocument files).byReference? "files.yaml#/paths/~1files~1{id}~0v#1/Put" = some other := by
  have htext : CatalogDocument.ofText? filesText = some files := by cbv
  obtain ⟨hrejected, hfound⟩ := found_of_parse htext
  have hparse : CatalogDocument.parse filesText = .ok files := by
    have hrepeats : ¬files.Repeats := by
      rw [← CatalogDocument.checked_eq_error_iff]
      rintro ⟨f, hf⟩
      have hchecked : files.checked.toOption.isSome := by decide +kernel
      rw [hf] at hchecked
      cases hchecked
    cases hparse : CatalogDocument.parse filesText with
    | error e => exact absurd (hrejected.mp ⟨e, hparse⟩) hrepeats
    | ok accepted => rw [(hfound accepted hparse).1]
  refine ⟨_, _, htext, hparse, rfl, rfl, rfl, ?_⟩
  obtain ⟨hname, -, hreference⟩ := (hfound files hparse).2 _ List.mem_cons_self
  obtain ⟨hidentifier, hpaths⟩ := hreference "files.yaml" (by decide)
  refine ⟨hname, hidentifier, (hpaths "Put" _).mpr ⟨⟨rfl, by decide +kernel⟩, [_], [], rfl, ?_⟩⟩
  -- The first operation has the path, but another method.
  simp only [List.mem_singleton, forall_eq]
  rintro ⟨-, hmethod⟩
  exact absurd hmethod (by decide +kernel)

end Catalog

end ApiCommand
