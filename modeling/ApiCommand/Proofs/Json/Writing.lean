import ApiCommand.Proofs.Json.Way

/-!
# Writing at pointers

A value that is written at a pointer into an object stays inside one member of it, the one that the
first token names; the empty pointer merges the members of an object. No other member changes, and
none is lost (`write_object`).
-/

namespace ApiCommand

/-- Writing the item at a pointer into an object writes the member: the first token names it, or the
pointer is empty and the item is an object that has it. -/
def Pointer.Reaches (tokens : List String) (item : Json) (name : String) : Prop :=
  match tokens with
  | [] => Dict.contains item.membersD name
  | token :: _ => token = name

namespace Json

/-- Writing below a token changes one member of an object. -/
theorem writeBelow_object {members : Dict Json} {token : String} {tokens : List String}
    {item v : Json} (h : (object members).writeBelow token tokens item = .ok v) :
    ∃ inner, v = object (Dict.insert members token inner) := by
  obtain ⟨way, hway, rfl⟩ := write_eq_ok_iff.mp h
  obtain ⟨s, rest, rfl, hleads, -⟩ := follows_cons.mp hway
  obtain rfl : s = .member token := hleads
  exact ⟨_, rfl⟩

/-- Writing at a pointer into an object gives an object, which has the members that were there and
those that the pointer reaches. The others are as they were. -/
theorem write_object {members : Dict Json} {tokens : List String} {item v : Json}
    (h : (object members).write tokens item = .ok v) :
    ∃ written, v = object written ∧
      (∀ name, Dict.contains written name ↔
        Dict.contains members name ∨ Pointer.Reaches tokens item name) ∧
      ∀ name, ¬Pointer.Reaches tokens item name →
        Dict.get? written name = Dict.get? members name := by
  cases tokens with
  | nil =>
    cases item with
    -- The whole object is written: its members are put on top of those that are there.
    | object new =>
      rw [write, Except.ok.injEq] at h
      refine ⟨Dict.extend members new, h.symm, fun name => ?_, fun name hname => ?_⟩
      · simp only [Pointer.Reaches, membersD, Dict.contains_extend, Bool.or_eq_true, or_comm]
      · have hnone : Dict.get? new.reverse name = none := by
          rw [Dict.get?_eq_none_iff, Dict.contains_reverse]
          exact hname
        rw [Dict.get?_extend, hnone, Option.none_or]
    | _ => cases h
  | cons token tokens =>
    -- Below the object, only the member of the first token changes.
    obtain ⟨inner, rfl⟩ := writeBelow_object h
    refine ⟨_, rfl, fun name => ?_, fun name hname => ?_⟩
    · simp only [Pointer.Reaches, Dict.contains_insert, Bool.or_eq_true, beq_iff_eq, or_comm]
    · rw [Dict.get?_insert]
      exact if_neg hname

end Json

end ApiCommand
