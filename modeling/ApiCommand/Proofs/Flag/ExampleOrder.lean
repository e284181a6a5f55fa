import ApiCommand.Flag.Help
import ApiCommand.Proofs.Text.Split
import Mathlib.Data.Prod.Lex
import Mathlib.Data.String.Basic

/-!
# The order of example arguments

The arguments of an example are sorted by their texts, and `dropCovered` goes through them once. The
argument for a flag is left out if and only if the one right before it is for a name that goes on
with a dot from the name of the flag (`mem_dropCovered_iff`). Names that go on with a dot come
first, but names that go on with a character between the dot and the equals sign, such as a digit,
come between them and the argument (`exists_pair_covers_iff`).
-/

namespace ApiCommand

namespace FlagSet

/-! ## Names that go on from others -/

/-- The name `x` goes on behind `name` with the character `c`. -/
def GoesOn (x name : String) (c : Char) : Prop := ∃ rest, x.toList = name.toList ++ c :: rest

/-- A name is covered by one that goes on behind it with a dot. -/
theorem covers_iff {last name : String} : covers last name ↔ GoesOn last name '.' := by
  rw [covers, List.isPrefixOf_iff_prefix, String.toList_append]
  constructor
  · rintro ⟨rest, h⟩
    exact ⟨rest, by simpa using h.symm⟩
  · rintro ⟨rest, h⟩
    exact ⟨rest, by simp [h]⟩

/-- Covering is transitive. -/
theorem covers_trans {a b c : String} (hcb : covers c b) (hba : covers b a) : covers c a := by
  obtain ⟨rest, hc⟩ := covers_iff.mp hcb
  obtain ⟨rest', hb⟩ := covers_iff.mp hba
  rw [hb, List.append_assoc, List.cons_append] at hc
  exact covers_iff.mpr ⟨_, hc⟩

/-- Of two names from which one name goes on, the longer one goes on from the other. -/
theorem eq_or_covers_of_covers {a b c : String} (ha : covers c a) (hb : covers c b) :
    a = b ∨ covers a b ∨ covers b a := by
  obtain ⟨rest, hca⟩ := covers_iff.mp ha
  obtain ⟨rest', hcb⟩ := covers_iff.mp hb
  rw [hca] at hcb
  obtain hname | ⟨more, hmore, -⟩ | ⟨more, hmore, -⟩ := Text.eq_or_append_of_append_cons_eq hcb
  · exact .inl (String.toList_injective hname)
  · exact .inr (.inr (covers_iff.mpr ⟨more, hmore⟩))
  · exact .inr (.inl (covers_iff.mpr ⟨more, hmore⟩))

/-! ## The order of arguments -/

namespace ExampleEntry

/-- What arguments are ordered by. -/
def key (e : ExampleEntry) : String ×ₗ String := toLex (e.argument, e.name)

/-- Entries are ordered as their keys are. -/
theorem le_iff {a b : ExampleEntry} : a.le b ↔ a.key ≤ b.key := by
  rw [key, key, Prod.Lex.toLex_le_toLex]
  simp only [le, Bool.or_eq_true, Bool.and_eq_true, decide_eq_true_eq, beq_iff_eq,
    le_iff_lt_or_eq]

/-- Sorting puts the keys in order. -/
theorem pairwise_mergeSort (entries : List ExampleEntry) :
    (entries.mergeSort le).Pairwise fun a b => a.key ≤ b.key := by
  refine (List.pairwise_mergeSort (fun a b c hab hbc => ?_) (fun a b => ?_) entries).imp le_iff.mp
  · rw [le_iff] at hab hbc ⊢
    exact le_trans hab hbc
  · rw [Bool.or_eq_true, le_iff, le_iff]
    exact le_total a.key b.key

/-- A list in order is what sorting makes of its items. -/
theorem mergeSort_eq_of_perm {entries sorted : List ExampleEntry} (hperm : sorted.Perm entries)
    (hsorted : sorted.Pairwise fun a b => a.key ≤ b.key) : entries.mergeSort le = sorted := by
  refine List.Perm.eq_of_pairwise (fun a b _ _ hab hba => ?_) (pairwise_mergeSort entries) hsorted
    ((List.mergeSort_perm entries le).trans hperm.symm)
  have hkey : (a.argument, a.name) = (b.argument, b.name) :=
    toLex.injective (le_antisymm hab hba)
  cases a
  cases b
  cases hkey
  rfl

theorem argument_le {a b : ExampleEntry} (h : a.key ≤ b.key) : a.argument ≤ b.argument :=
  (Prod.Lex.toLex_le_toLex'.mp h).1

/-- The argument gives a text to the flag with the name. -/
def IsToken (e : ExampleEntry) : Prop := ∃ text, e.argument = "--" ++ e.name ++ "=" ++ text

variable {a b : ExampleEntry}

/-- An argument starts with the name of its flag and an equals sign. -/
theorem IsToken.toList_argument (h : a.IsToken) :
    ∃ more, a.argument.toList = ("--" ++ a.name).toList ++ '=' :: more := by
  obtain ⟨text, h⟩ := h
  exact ⟨text.toList, by simp [h]⟩

/-- If a name goes on, then so does the argument that it starts. -/
theorem IsToken.toList_argument_of_goesOn (h : a.IsToken) {name : String} {c : Char}
    (hname : GoesOn a.name name c) :
    ∃ more, a.argument.toList = ("--" ++ name).toList ++ c :: more := by
  obtain ⟨text, h⟩ := h
  obtain ⟨rest, hname⟩ := hname
  exact ⟨rest ++ '=' :: text.toList, by simp [h, hname]⟩

/-- The first characters that differ decide the order. -/
theorem key_lt_of_toList {front more more' : List Char} {c d : Char}
    (ha : a.argument.toList = front ++ c :: more) (hb : b.argument.toList = front ++ d :: more')
    (h : c < d) : a.key < b.key := by
  refine Prod.Lex.toLex_lt_toLex.mpr (.inl (String.lt_iff_toList_lt.mpr ?_))
  rw [ha, hb]
  exact List.append_left_lt (List.cons_lt_cons_iff.mpr (.inl h))

/-- The arguments for names that go on with a character before the equals sign come first. -/
theorem key_lt_of_goesOn (ha : a.IsToken) (hb : b.IsToken) {c : Char}
    (h : GoesOn a.name b.name c) (hc : c < '=') : a.key < b.key := by
  obtain ⟨more, ha⟩ := ha.toList_argument_of_goesOn h
  obtain ⟨more', hb⟩ := hb.toList_argument
  exact key_lt_of_toList ha hb hc

/-- The argument for a place comes before those for the places around it, since a dot is less than
an equals sign. -/
theorem key_lt_of_covers (ha : a.IsToken) (hb : b.IsToken) (h : covers a.name b.name) :
    a.key < b.key :=
  key_lt_of_goesOn ha hb (covers_iff.mp h) (by decide)

end ExampleEntry

/-- Texts between two texts that begin in the same way begin in this way too. -/
theorem exists_append_of_not_lt {front low text high : List Char} (hlow : ¬text < front ++ low)
    (hhigh : ¬front ++ high < text) : ∃ rest, text = front ++ rest ∧ ¬rest < low ∧ ¬high < rest := by
  induction front generalizing text with
  | nil => exact ⟨text, rfl, hlow, hhigh⟩
  | cons c front ih =>
    cases text with
    | nil => exact absurd (List.nil_lt_cons _ _) hlow
    | cons d text =>
      rw [List.cons_append, List.cons_lt_cons_iff, not_or, not_and] at hlow hhigh
      have hcd : c = d := le_antisymm (not_lt.mp hlow.1) (not_lt.mp hhigh.1)
      subst hcd
      obtain ⟨rest, rfl, hspec⟩ := ih (hlow.2 rfl) (hhigh.2 rfl)
      exact ⟨rest, rfl, hspec⟩

/-! ## Neighbours -/

section Sorted

variable {α β : Type} [Preorder β] {key : α → β}

/-- In a sorted list, whatever is less than an item stands in front of it. -/
theorem mem_of_lt_of_sorted {before after : List α} {a b : α}
    (hsorted : (before ++ b :: after).Pairwise fun a b => key a < key b)
    (ha : a ∈ before ++ b :: after) (hab : key a < key b) : a ∈ before := by
  obtain ⟨-, hafter, -⟩ := List.pairwise_append.mp hsorted
  refine (List.mem_append.mp ha).resolve_right fun ha => ?_
  rcases List.mem_cons.mp ha with rfl | ha
  · exact lt_irrefl _ hab
  · exact lt_asymm hab ((List.pairwise_cons.mp hafter).1 a ha)

/-- In a sorted list, one item is right before another one if nothing is between them. -/
theorem infix_pair_iff {xs : List α} (hsorted : xs.Pairwise fun a b => key a < key b) {a b : α} :
    [a, b] <:+: xs ↔
      a ∈ xs ∧ b ∈ xs ∧ key a < key b ∧ ∀ c ∈ xs, ¬(key a < key c ∧ key c < key b) := by
  constructor
  · rintro ⟨before, after, rfl⟩
    simp only [List.append_assoc, List.cons_append, List.nil_append, List.pairwise_append,
      List.pairwise_cons, List.mem_cons] at hsorted
    obtain ⟨-, ⟨hafter, hbehind, -⟩, hbefore⟩ := hsorted
    refine ⟨by simp, by simp, hafter b (.inl rfl), fun c hc => ?_⟩
    simp only [List.append_assoc, List.cons_append, List.nil_append, List.mem_append,
      List.mem_cons] at hc
    rintro ⟨hac, hcb⟩
    rcases hc with hc | rfl | rfl | hc
    · exact lt_asymm hac (hbefore c hc a (.inl rfl))
    · exact lt_irrefl _ hac
    · exact lt_irrefl _ hcb
    · exact lt_asymm hcb (hbehind c hc)
  · rintro ⟨ha, hb, hab, hnone⟩
    obtain ⟨before, after, rfl⟩ := List.append_of_mem hb
    obtain ⟨first, between, rfl⟩ := List.append_of_mem (mem_of_lt_of_sorted hsorted ha hab)
    -- What stands between them in the list is between them in the order.
    cases between with
    | nil => exact ⟨first, after, by simp⟩
    | cons c between =>
      simp only [List.append_assoc, List.cons_append, List.pairwise_append,
        List.pairwise_cons] at hsorted
      obtain ⟨-, ⟨hac, hcb, -⟩, -⟩ := hsorted
      exact absurd ⟨hac c (by simp), hcb b (by simp)⟩ (hnone c (by simp))

end Sorted

/-- Of an item that is not the last one, the one right behind it is among those that follow. -/
theorem mem_of_infix_pair {α : Type} {a b c : α} {xs : List α} (h : [a, b] <:+: c :: xs) :
    b ∈ xs := by
  rcases List.infix_cons_iff.mp h with ⟨rest, h⟩ | h
  · cases h
    exact List.mem_cons_self
  · exact h.mem (by simp)

/-- Neighbours in a list are the first two or are found in the rest of the list. -/
theorem infix_pair_cons_cons_iff {α : Type} {a b c d : α} {xs : List α} :
    [a, b] <:+: c :: d :: xs ↔ a = c ∧ b = d ∨ [a, b] <:+: d :: xs := by
  rw [List.infix_cons_iff]
  simp [List.cons_prefix_cons]

/-! ## What is left out -/

/-- Dropping entries does not change the order of those that are left. -/
theorem dropCovered_sublist (last : Option String) (entries : List ExampleEntry) :
    (dropCovered last entries).Sublist entries := by
  induction entries generalizing last with
  | nil => exact List.Sublist.refl []
  | cons e rest ih =>
    rw [dropCovered]
    split
    next => exact (ih last).cons e
    next => exact (ih (some e.name)).cons_cons e

/-- The entries of different flags, in order. -/
structure InOrder (entries : List ExampleEntry) : Prop where
  isToken : ∀ e ∈ entries, e.IsToken
  name_ne : entries.Pairwise fun a b => a.name ≠ b.name
  key_lt : entries.Pairwise fun a b => a.key < b.key

/-- Without the first one, entries are still in order. -/
theorem InOrder.of_cons {e : ExampleEntry} {rest : List ExampleEntry} (h : InOrder (e :: rest)) :
    InOrder rest where
  isToken := (List.forall_mem_cons.mp h.isToken).2
  name_ne := (List.pairwise_cons.mp h.name_ne).2
  key_lt := (List.pairwise_cons.mp h.key_lt).2

/-- Behind the argument `p`, the last one kept is `p` itself or goes on from it. So it decides in the
same way as `p` does whether the next one is left out. -/
theorem mem_dropCovered_cons_iff {p : ExampleEntry} {last : String} {entries : List ExampleEntry}
    (hlast : last = p.name ∨ covers last p.name) (h : InOrder (p :: entries)) {e : ExampleEntry} :
    e ∈ dropCovered (some last) entries ↔
      e ∈ entries ∧ ∀ d, [d, e] <:+: p :: entries → ¬covers d.name e.name := by
  induction entries generalizing p last with
  | nil => simp [dropCovered]
  | cons x rest ih =>
    -- If `p` was left out, then `last` goes on from it, and both go on from the same names behind.
    have hcovers : covers last x.name ↔ covers p.name x.name := by
      rcases hlast with rfl | hlast
      · rfl
      refine ⟨fun hx => ?_, covers_trans hlast⟩
      rcases eq_or_covers_of_covers hlast hx with heq | hpx | hxp
      · exact absurd heq ((List.pairwise_cons.mp h.name_ne).1 x List.mem_cons_self)
      · exact hpx
      · -- What goes on from `p` comes before `p`.
        have hlt := ExampleEntry.key_lt_of_covers (h.isToken x (by simp)) (h.isToken p (by simp)) hxp
        exact absurd hlt (lt_asymm ((List.pairwise_cons.mp h.key_lt).1 x List.mem_cons_self))
    have hx : x ∉ rest := fun hmem =>
      lt_irrefl _ ((List.pairwise_cons.mp h.of_cons.key_lt).1 x hmem)
    have hbefore : ∀ d, [d, x] <:+: p :: x :: rest ↔ d = p := by
      intro d
      rw [infix_pair_cons_cons_iff]
      refine ⟨?_, fun hd => .inl ⟨hd, rfl⟩⟩
      rintro (⟨hd, -⟩ | hinfix)
      · exact hd
      · exact absurd (mem_of_infix_pair hinfix) hx
    have hbehind : e ≠ x → ∀ d, [d, e] <:+: p :: x :: rest ↔ [d, e] <:+: x :: rest := by
      intro hne d
      rw [infix_pair_cons_cons_iff]
      simp [hne]
    -- Either way `x` is the one before from here on, and what was kept last is as good as `x`.
    rw [dropCovered, Option.any_some]
    by_cases hpx : covers p.name x.name
    · rw [if_pos (hcovers.mpr hpx), ih (.inr (hcovers.mpr hpx)) h.of_cons]
      by_cases hex : e = x
      · subst hex
        simp [hx, hbefore, hpx]
      · simp [hex, hbehind hex]
    · rw [if_neg (mt hcovers.mp hpx), List.mem_cons, ih (.inl rfl) h.of_cons]
      by_cases hex : e = x
      · subst hex
        simp [hbefore, hpx]
      · simp [hex, hbehind hex]

/-- An argument is left out exactly if the one right before it is for a name that goes on from the
name of its flag with a dot. -/
theorem mem_dropCovered_iff {entries : List ExampleEntry} (h : InOrder entries) {e : ExampleEntry} :
    e ∈ dropCovered none entries ↔
      e ∈ entries ∧ ∀ d, [d, e] <:+: entries → ¬covers d.name e.name := by
  cases entries with
  | nil => simp [dropCovered]
  | cons p rest =>
    have hp : p ∉ rest := fun hmem => lt_irrefl _ ((List.pairwise_cons.mp h.key_lt).1 p hmem)
    rw [dropCovered, Option.any_none, if_neg (by decide), List.mem_cons,
      mem_dropCovered_cons_iff (.inl rfl) h, List.mem_cons]
    by_cases hep : e = p
    · subst hep
      simp only [true_or, true_and, true_iff]
      intro d hinfix
      exact absurd (mem_of_infix_pair hinfix) hp
    · simp [hep]

/-- Between an argument for a name that goes on with a dot and the argument that it goes on from,
there are only arguments for names that go on too. -/
theorem exists_goesOn_of_le {d x e : ExampleEntry} (hd : d.IsToken) (hx : x.IsToken)
    (he : e.IsToken) (hxequals : '=' ∉ x.name.toList) (heequals : '=' ∉ e.name.toList)
    (hne : x.name ≠ e.name) (hcovers : covers d.name e.name) (hdx : d.key ≤ x.key)
    (hxe : x.key ≤ e.key) : ∃ c, GoesOn x.name e.name c ∧ '.' ≤ c ∧ c < '=' := by
  obtain ⟨low, hlow⟩ := hd.toList_argument_of_goesOn (covers_iff.mp hcovers)
  obtain ⟨high, hhigh⟩ := he.toList_argument
  obtain ⟨text, htext⟩ := hx.toList_argument
  have hdx := not_lt.mpr (ExampleEntry.argument_le hdx)
  have hxe := not_lt.mpr (ExampleEntry.argument_le hxe)
  rw [String.lt_iff_toList_lt, hlow] at hdx
  rw [String.lt_iff_toList_lt, hhigh] at hxe
  obtain ⟨rest, hrest, hlow, hhigh⟩ := exists_append_of_not_lt hdx hxe
  rw [htext, String.toList_append, String.toList_append, List.append_assoc, List.append_assoc,
    List.append_cancel_left_eq] at hrest
  cases rest with
  | nil => exact absurd (List.nil_lt_cons _ _) hlow
  | cons c rest =>
    obtain hname | ⟨more, hmore, -⟩ | ⟨more, hmore, -⟩ := Text.eq_or_append_of_append_cons_eq hrest
    · exact absurd (String.toList_injective hname) hne
    · -- A name that the other one goes on from would end with the equals sign there.
      exact absurd (by simp [hmore]) heequals
    · rw [List.cons_lt_cons_iff, not_or] at hlow hhigh
      have hc : c ≠ '=' := by
        rintro rfl
        exact hxequals (by simp [hmore])
      exact ⟨c, ⟨more, hmore⟩, not_lt.mp hlow.1, lt_of_le_of_ne (not_lt.mp hhigh.1) hc⟩

/-- If no name has an equals sign, then the argument right before another one is for a name that
goes on with a dot if and only if there is such a name at all, and none that goes on with a character
between the dot and the equals sign. -/
theorem exists_pair_covers_iff {entries : List ExampleEntry} (h : InOrder entries)
    (hequals : ∀ e ∈ entries, '=' ∉ e.name.toList) {e : ExampleEntry} (he : e ∈ entries) :
    (∃ d, [d, e] <:+: entries ∧ covers d.name e.name) ↔
      (∃ d ∈ entries, covers d.name e.name) ∧
        ∀ x ∈ entries, ∀ c, '.' < c → c < '=' → ¬GoesOn x.name e.name c := by
  constructor
  · rintro ⟨d, hpair, hcovers⟩
    obtain ⟨hd, -, -, hnone⟩ := (infix_pair_iff h.key_lt).mp hpair
    refine ⟨⟨d, hd, hcovers⟩, fun x hx c hdot hc hgoesOn => hnone x hx ⟨?_, ?_⟩⟩
    · obtain ⟨more, hmore⟩ := (h.isToken d hd).toList_argument_of_goesOn (covers_iff.mp hcovers)
      obtain ⟨more', hmore'⟩ := (h.isToken x hx).toList_argument_of_goesOn hgoesOn
      exact ExampleEntry.key_lt_of_toList hmore hmore' hdot
    · exact ExampleEntry.key_lt_of_goesOn (h.isToken x hx) (h.isToken e he) hgoesOn hc
  · rintro ⟨⟨d, hd, hcovers⟩, hnone⟩
    have hlt := ExampleEntry.key_lt_of_covers (h.isToken d hd) (h.isToken e he) hcovers
    obtain ⟨before, after, rfl⟩ := List.append_of_mem he
    obtain ⟨hbefore, -, hacross⟩ := List.pairwise_append.mp h.key_lt
    have hmem := mem_of_lt_of_sorted h.key_lt hd hlt
    obtain ⟨first, x, rfl⟩ := (List.eq_nil_or_concat' before).resolve_left (List.ne_nil_of_mem hmem)
    refine ⟨x, ⟨first, after, by simp⟩, ?_⟩
    -- The one right before is between the two, so its name goes on as well, and only with a dot.
    have hdx : d.key ≤ x.key := by
      rcases List.mem_append.mp hmem with hmem | hmem
      · exact le_of_lt ((List.pairwise_append.mp hbefore).2.2 d hmem x (by simp))
      · rw [List.mem_singleton.mp hmem]
    have hxe : x.key < e.key := hacross x (by simp) e (by simp)
    have hne : x.name ≠ e.name :=
      (List.pairwise_append.mp h.name_ne).2.2 x (by simp) e (by simp)
    obtain ⟨c, hgoesOn, hdot, hc⟩ := exists_goesOn_of_le (h.isToken d hd)
      (h.isToken x (by simp)) (h.isToken e (by simp)) (hequals x (by simp)) (hequals e (by simp))
      hne hcovers hdx (le_of_lt hxe)
    rcases eq_or_lt_of_le hdot with rfl | hlt
    · exact covers_iff.mpr hgoesOn
    · exact absurd hgoesOn (hnone x (by simp) c hlt hc)

end FlagSet

end ApiCommand
