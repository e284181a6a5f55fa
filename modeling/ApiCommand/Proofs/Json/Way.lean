import ApiCommand.Proofs.Json.Place
import ApiCommand.Proofs.Text.Numeral

/-!
# Ways of pointers

In a value that is written to, a token stands for a step: to a member of an object, to an item of an
array, or to the place behind its last item. Writing at a pointer puts the item at the end of the
way that its tokens follow (`write_eq_ok_iff`). There is no such way exactly if the tokens lead,
through what is there, to a value that refuses the next one (`exists_write_eq_error_iff`).
-/

namespace ApiCommand

namespace Pointer

/-- The token denotes the index: digits behind at most one plus sign, for a number of 64 bits. -/
def Denotes (token : String) (index : Nat) : Prop :=
  ∃ sign digits, token.toList = sign ++ digits ∧ (sign = [] ∨ sign = ['+']) ∧
    digits ≠ [] ∧ (∀ c ∈ digits, c.isDigit) ∧ Text.digitsValue digits = index ∧
    index < Nat.pow 2 64

/-- A token is read as an index if it denotes one. -/
theorem word64?_eq_some_iff {token : String} {index : Nat} :
    Text.word64? token.toList = some index ↔ Denotes token index := by
  unfold Denotes Text.word64?
  generalize token.toList = cs
  simp only [Option.bind_eq_bind, Option.bind_eq_some_iff, Text.natural?_eq_some_iff]
  constructor
  · rintro ⟨n, hdigits, hn⟩
    obtain ⟨hlt, heq⟩ := Option.ite_none_right_eq_some.mp hn
    cases heq
    split at hdigits
    next rest => exact ⟨['+'], rest, rfl, .inr rfl, hdigits.1, hdigits.2.1, hdigits.2.2, hlt⟩
    next => exact ⟨[], cs, rfl, .inl rfl, hdigits.1, hdigits.2.1, hdigits.2.2, hlt⟩
  · rintro ⟨sign, digits, rfl, rfl | rfl, hne, hdigits, hvalue, hlt⟩
    · refine ⟨index, ?_, if_pos hlt⟩
      split
      next rest heq =>
        -- A plus sign is no digit.
        rw [List.nil_append] at heq
        exact absurd (hdigits '+' (heq ▸ List.mem_cons_self)) (by decide)
      next => exact ⟨hne, hdigits, hvalue⟩
    · exact ⟨index, ⟨hne, hdigits, hvalue⟩, if_pos hlt⟩

/-- An index to write at is up to the length, which `-` stands for too. -/
theorem writeIndex_eq_ok_iff {token : String} {length index : Nat} :
    writeIndex token length = .ok index ↔
      (token = "-" ∧ index = length) ∨ (Denotes token index ∧ index ≤ length) := by
  unfold writeIndex
  split
  next hminus =>
    -- The text `-` itself is no numeral, so the two cases exclude each other.
    subst hminus
    have hnot : ¬Denotes "-" index := by
      rw [← word64?_eq_some_iff, show Text.word64? "-".toList = none from rfl]
      exact Option.some_ne_none index ∘ Eq.symm
    simp [hnot, eq_comm]
  next hminus =>
    rw [or_iff_right fun h => hminus h.1, ← word64?_eq_some_iff]
    cases Text.word64? token.toList with
    | none => simp
    | some n =>
      dsimp only
      split
      next hle =>
        simp only [Except.ok.injEq, Option.some.injEq]
        grind
      next hgt =>
        simp only [reduceCtorEq, Option.some.injEq]
        grind

end Pointer

namespace Json

/-- The token stands for the step in a value that is written to. The place behind the last item of
an array is `-`, or the length. -/
def Leads (v : Json) (token : String) (s : Step) : Prop :=
  match v with
  | object _ => s = .member token
  | array items =>
    ∃ index, s = .item index ∧
      ((token = "-" ∧ index = items.length) ∨ (Pointer.Denotes token index ∧ index ≤ items.length))
  | _ => False

/-- The tokens stand for the steps of the way. Where there is nothing on the way, there will be an
object. -/
def Follows (v : Json) (tokens : List String) (way : List Step) : Prop :=
  match tokens, way with
  | [], [] => True
  | token :: tokens, s :: way => v.Leads token s ∧ (v.childD s).Follows tokens way
  | _, _ => False

/-- Nothing can be written to the value at the token: the value is no container, or it is an array
and the token is neither `-` nor an index up to its length. -/
def Refuses (v : Json) (token : String) : Prop :=
  match v with
  | object _ => False
  | array items => token ≠ "-" ∧ ∀ index, Pointer.Denotes token index → items.length < index
  | _ => True

/-- The tokens lead, through what is there, to a value that refuses the next one. -/
def Blocks (v : Json) (tokens : List String) : Prop :=
  ∃ done token rest place reached, tokens = done ++ token :: rest ∧ v.Follows done place ∧
    v.node? place = some reached ∧ reached.Refuses token

/-- The step that a token stands for. A value that is no container is refused for its kind. -/
def stepIn (v : Json) (refuse : Kind → String → Pointer.Obstacle) (token : String) :
    Except Pointer.Obstacle Step :=
  match v with
  | object _ => .ok (.member token)
  | array items => (Pointer.writeIndex token items.length).map .item
  | v => .error (refuse v.kind token)

/-- The way that tokens stand for. Only the wording of a refusal depends on whether the token is the
last one. -/
def way (v : Json) (token : String) (tokens : List String) :
    Except Pointer.Obstacle (List Step) :=
  match tokens with
  | [] => (v.stepIn .cannotSet token).map fun s => [s]
  | next :: tokens =>
    (v.stepIn .cannotDescend token).bind fun s => ((v.childD s).way next tokens).map (s :: ·)

/-! ## One token -/

section Step

variable {v : Json} {token : String} {s : Step}

/-- A token is accepted if it leads somewhere. -/
theorem stepIn_eq_ok_iff {refuse : Kind → String → Pointer.Obstacle} :
    v.stepIn refuse token = .ok s ↔ v.Leads token s := by
  cases v <;> try simp [stepIn, Leads, eq_comm]; done
  case array items =>
    simp only [stepIn, Leads, ← Pointer.writeIndex_eq_ok_iff]
    cases Pointer.writeIndex token items.length <;> simp [Except.map, eq_comm]

/-- A token stands for no more than one step. -/
theorem Leads.unique {s' : Step} (h : v.Leads token s) (h' : v.Leads token s') : s = s' := by
  have hstep : v.stepIn .cannotSet token = .ok s := stepIn_eq_ok_iff.mpr h
  exact Except.ok.inj (hstep.symm.trans (stepIn_eq_ok_iff.mpr h'))

/-- Where a token leads to, a value can be put. -/
theorem Leads.takes (h : v.Leads token s) : v.Takes s := by
  cases v <;> try exact h.elim
  case array items =>
    obtain ⟨index, rfl, ⟨-, rfl⟩ | ⟨-, hle⟩⟩ := h
    · exact Nat.le_refl _
    · exact hle
  case object members =>
    cases h
    exact trivial

/-- A value refuses exactly the tokens that stand for no step in it. -/
theorem refuses_iff : v.Refuses token ↔ ∀ s, ¬v.Leads token s := by
  cases v <;> try simp [Refuses, Leads]; done
  case array items =>
    constructor
    · rintro ⟨hminus, hfar⟩ s ⟨index, -, ⟨rfl, -⟩ | ⟨hdenotes, hle⟩⟩
      · exact hminus rfl
      · exact absurd (hfar index hdenotes) (Nat.not_lt.mpr hle)
    · intro h
      refine ⟨?_, fun index hdenotes => ?_⟩
      · rintro rfl
        exact h (.item items.length) ⟨_, rfl, .inl ⟨rfl, rfl⟩⟩
      · exact Nat.not_le.mp fun hle => h (.item index) ⟨_, rfl, .inr ⟨hdenotes, hle⟩⟩

/-- A value refuses a token, or the token leads somewhere. -/
theorem not_refuses_iff : ¬v.Refuses token ↔ ∃ s, v.Leads token s := by
  rw [refuses_iff]
  simp

end Step

/-! ## All tokens -/

@[simp]
theorem follows_nil {v : Json} {way : List Step} : v.Follows [] way ↔ way = [] := by
  cases way <;> simp [Follows]

/-- Following tokens is a step and following the others from there. -/
theorem follows_cons {v : Json} {token : String} {tokens : List String} {way : List Step} :
    v.Follows (token :: tokens) way ↔
      ∃ s rest, way = s :: rest ∧ v.Leads token s ∧ (v.childD s).Follows tokens rest := by
  constructor
  · intro h
    cases way with
    | nil => exact h.elim
    | cons s rest => exact ⟨s, rest, rfl, h⟩
  · rintro ⟨s, rest, rfl, h⟩
    exact h

/-- A way that tokens lead along can be taken. -/
theorem Follows.admits {v : Json} {tokens : List String} {way : List Step}
    (h : v.Follows tokens way) : v.Admits way := by
  induction tokens generalizing v way with
  | nil =>
    obtain rfl := follows_nil.mp h
    exact trivial
  | cons token tokens ih =>
    obtain ⟨s, rest, rfl, hleads, hrest⟩ := follows_cons.mp h
    exact ⟨hleads.takes, ih hrest⟩

theorem not_blocks_nil (v : Json) : ¬v.Blocks [] := by
  rintro ⟨done, token, rest, place, reached, heq, -⟩
  simp at heq

/-- What is still to be created refuses nothing. -/
theorem not_blocks_emptyObject (tokens : List String) : ¬emptyObject.Blocks tokens := by
  rintro ⟨done, token, rest, place, reached, -, -, hnode, hrefuses⟩
  -- The object itself takes every name, and there is nothing in it that could refuse one.
  cases place with
  | nil =>
    cases hnode
    exact hrefuses
  | cons s place =>
    rw [node?, child?_emptyObject] at hnode
    cases hnode

/-- If tokens block behind a step, then there is something behind it. -/
theorem exists_child?_of_blocks {v : Json} {s : Step} {tokens : List String}
    (h : (v.childD s).Blocks tokens) : ∃ inner, v.child? s = some inner ∧ inner.Blocks tokens := by
  cases hchild : v.child? s with
  | none =>
    rw [childD_of_none hchild] at h
    exact absurd h (not_blocks_emptyObject tokens)
  | some inner =>
    rw [childD_of_child? hchild] at h
    exact ⟨inner, rfl, h⟩

/-- Tokens block if the value refuses the first one, or if the others block behind its step. -/
theorem blocks_cons {v : Json} {token : String} {tokens : List String} :
    v.Blocks (token :: tokens) ↔
      v.Refuses token ∨ ∃ s, v.Leads token s ∧ (v.childD s).Blocks tokens := by
  constructor
  · -- The value that refuses is the first one, or it is reached through its step.
    rintro ⟨_ | ⟨first, done⟩, token', rest, place, reached, heq, hfollows, hnode, hrefuses⟩
    · cases heq
      obtain rfl := follows_nil.mp hfollows
      cases hnode
      exact .inl hrefuses
    · obtain ⟨rfl, rfl⟩ := List.cons.inj heq
      obtain ⟨s, place, rfl, hleads, hrest⟩ := follows_cons.mp hfollows
      obtain ⟨inner, hchild, hreached⟩ := Option.bind_eq_some_iff.mp hnode
      refine .inr ⟨s, hleads, done, token', rest, place, reached, rfl, hrest, ?_, hrefuses⟩
      rw [childD_of_child? hchild, hreached]
  · rintro (hrefuses | ⟨s, hleads, hblocks⟩)
    · exact ⟨[], token, tokens, [], v, rfl, trivial, rfl, hrefuses⟩
    · obtain ⟨inner, hchild, done, token', rest, place, reached, rfl, hrest, hreached, hrefuses⟩ :=
        exists_child?_of_blocks hblocks
      refine ⟨token :: done, token', rest, s :: place, reached, rfl, ⟨hleads, ?_⟩, ?_, hrefuses⟩
      · rwa [childD_of_child? hchild]
      · rw [node?, hchild, Option.bind_some, hreached]

/-- A token that leads somewhere leaves the blocking to the others. -/
theorem blocks_cons_of_leads {v : Json} {token : String} {s : Step} (h : v.Leads token s)
    (tokens : List String) : v.Blocks (token :: tokens) ↔ (v.childD s).Blocks tokens := by
  rw [blocks_cons]
  constructor
  · rintro (hrefuses | ⟨s', hleads, hblocks⟩)
    · exact absurd h (refuses_iff.mp hrefuses s)
    · obtain rfl := h.unique hleads
      exact hblocks
  · exact fun hblocks => .inr ⟨s, h, hblocks⟩

/-- Tokens that lead to where there is nothing may be followed by any others. -/
theorem Follows.not_blocks_append {v : Json} {done : List String} {place : List Step}
    (h : v.Follows done place) (hnone : v.node? place = none) (rest : List String) :
    ¬v.Blocks (done ++ rest) := by
  induction done generalizing v place with
  | nil =>
    obtain rfl := follows_nil.mp h
    cases hnone
  | cons token done ih =>
    obtain ⟨s, place, rfl, hleads, hrest⟩ := follows_cons.mp h
    rw [List.cons_append, blocks_cons_of_leads hleads]
    intro hblocks
    obtain ⟨inner, hchild, hinner⟩ := exists_child?_of_blocks hblocks
    rw [node?, hchild, Option.bind_some] at hnone
    rw [childD_of_child? hchild] at hrest
    exact ih hrest hnone hinner

/-- Tokens follow a way exactly if they do not block. -/
theorem exists_follows_iff {v : Json} {tokens : List String} :
    (∃ way, v.Follows tokens way) ↔ ¬v.Blocks tokens := by
  induction tokens generalizing v with
  | nil => exact iff_of_true ⟨[], trivial⟩ (not_blocks_nil v)
  | cons token tokens ih =>
    constructor
    · rintro ⟨way, hfollows⟩
      obtain ⟨s, rest, rfl, hleads, hrest⟩ := follows_cons.mp hfollows
      rw [blocks_cons_of_leads hleads]
      exact ih.mp ⟨rest, hrest⟩
    · intro hfree
      obtain ⟨s, hleads⟩ : ∃ s, v.Leads token s :=
        not_refuses_iff.mp fun hrefuses => hfree (blocks_cons.mpr (.inl hrefuses))
      rw [blocks_cons_of_leads hleads] at hfree
      obtain ⟨way, hway⟩ := ih.mpr hfree
      exact ⟨s :: way, hleads, hway⟩

/-- The way is found if the tokens lead along it. -/
theorem way_eq_ok_iff {v : Json} {token : String} {tokens : List String} {way : List Step} :
    v.way token tokens = .ok way ↔ v.Follows (token :: tokens) way := by
  induction tokens generalizing v token way with
  | nil =>
    -- At the last token, the item is put.
    simp only [follows_cons, follows_nil, ← @stepIn_eq_ok_iff v token _ .cannotSet]
    rw [Json.way]
    cases v.stepIn .cannotSet token <;> simp [Except.map, eq_comm]
  | cons next tokens ih =>
    -- Before other tokens, a step is taken and the others are followed from there.
    rw [follows_cons, Json.way]
    simp only [← ih, ← @stepIn_eq_ok_iff v token _ .cannotDescend]
    cases v.stepIn .cannotDescend token with
    | error o => simp [Except.bind]
    | ok s =>
      rw [Except.bind]
      constructor
      · intro h
        cases hrest : (v.childD s).way next tokens with
        | error o =>
          rw [hrest] at h
          cases h
        | ok rest =>
          rw [hrest] at h
          exact ⟨s, rest, (Except.ok.inj h).symm, rfl, hrest⟩
      · rintro ⟨s', rest, rfl, hs, hrest⟩
        cases hs
        rw [hrest, Except.map]

/-! ## Writing -/

/-- At its last token, a path puts the item. -/
theorem writeBelow_nil (v : Json) (token : String) (item : Json) :
    v.writeBelow token [] item =
      (v.stepIn .cannotSet token).map fun s => v.putChild s item := by
  cases v <;> try rfl
  case array items =>
    rw [writeBelow, stepIn]
    cases Pointer.writeIndex token items.length <;> rfl

/-- In front of other tokens, a path goes down and puts back what comes out below. -/
theorem writeBelow_cons (v : Json) (token next : String) (tokens : List String) (item : Json) :
    v.writeBelow token (next :: tokens) item =
      (v.stepIn .cannotDescend token).bind fun s =>
        ((v.childD s).writeBelow next tokens item).map (v.putChild s) := by
  cases v <;> try rfl
  case array items =>
    rw [writeBelow, stepIn]
    cases Pointer.writeIndex token items.length <;> rfl

/-- Writing puts the item at the end of the way, and fails if there is no way. -/
theorem write_cons (v : Json) (token : String) (tokens : List String) (item : Json) :
    v.write (token :: tokens) item = (v.way token tokens).map fun way => v.putAt way item := by
  rw [write]
  induction tokens generalizing v token with
  | nil =>
    rw [writeBelow_nil, way]
    cases v.stepIn .cannotSet token <;> rfl
  | cons next tokens ih =>
    rw [writeBelow_cons, way]
    cases v.stepIn .cannotDescend token with
    | error o => rfl
    | ok s =>
      rw [Except.bind, Except.bind, ih]
      cases (v.childD s).way next tokens <;> rfl

/-- Writing puts the item at the end of the way that the tokens lead along. -/
theorem write_eq_ok_iff {v : Json} {token : String} {tokens : List String} {item w : Json} :
    v.write (token :: tokens) item = .ok w ↔
      ∃ way, v.Follows (token :: tokens) way ∧ w = v.putAt way item := by
  rw [write_cons]
  simp only [← way_eq_ok_iff]
  cases v.way token tokens <;> simp [Except.map, eq_comm]

/-- Writing fails if the tokens lead to a value that refuses the next one, and only then. -/
theorem exists_write_eq_error_iff {v : Json} {token : String} {tokens : List String}
    {item : Json} :
    (∃ o, v.write (token :: tokens) item = .error o) ↔ v.Blocks (token :: tokens) := by
  rw [← Classical.not_not (a := v.Blocks _), ← exists_follows_iff]
  simp only [← way_eq_ok_iff, write_cons]
  cases v.way token tokens <;> simp [Except.map]

end Json

end ApiCommand
