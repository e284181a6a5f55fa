import ApiCommand.Proofs.Flag.ExampleOrder
import ApiCommand.Proofs.Flag.Setting
import ApiCommand.Proofs.Flag.WritableNames

/-!
# Usage examples

A flag has the example of its own schema, or else what the example of its parent holds for its
property (`exampleOf_eq`). The usage example of a command has the arguments for the flags that have
an example, sorted and without those that are covered by a more specific one. What covers an
argument is found by names, and only right before it (`usageExample_of_ofOperation`). So if names
have dots just between properties, an argument is left out exactly if a flag inside has an example,
unless some other flag with an example has a name that goes on with a digit, or with another
character between the dot and the equals sign.
-/

namespace ApiCommand

namespace FlagSet

/-! ## The example for a flag -/

section Enclosing

variable {s : FlagSet} (hnested : s.Nested)

include hnested

/-- Ancestors come first. -/
theorem le_of_surrounds {a c : Nat} (h : s.Surrounds a c) : a ≤ c := by
  induction h with
  | refl => exact Nat.le_refl a
  | tail _ hparent ih =>
    obtain ⟨p, hp, hparent⟩ := hparent
    exact Nat.le_trans ih (Nat.le_of_lt (hnested.inside hp hparent).1)

variable (hdistinct : s.Distinct)

include hdistinct

/-- The flags that enclose a flag are among those that come before a later one. -/
theorem filter_encloses_eq_take {id n : Nat} {f : Flag} {p : Place} (hf : s.flag? id = some f)
    (hp : f.place? = some p) (hn : id < n) :
    s.flags.filter (fun g => g.encloses f) = (s.flags.take n).filter fun g => g.encloses f := by
  have hdrop : (s.flags.drop n).filter (fun g => g.encloses f) = [] := by
    refine List.filter_eq_nil_iff.mpr fun g hg henc => ?_
    obtain ⟨i, hi⟩ := List.mem_iff_getElem?.mp hg
    rw [List.getElem?_drop] at hi
    have hle := le_of_surrounds hnested ((encloses_iff hnested hdistinct hi hf hp).mp henc)
    omega
  conv_lhs => rw [← List.take_append_drop n s.flags, List.filter_append, hdrop, List.append_nil]

/-- A flag is enclosed by itself and by what encloses its parent. -/
theorem filter_encloses {id : Nat} {f : Flag} {p : Place} (hf : s.flag? id = some f)
    (hp : f.place? = some p) :
    s.flags.filter (fun g => g.encloses f) =
      ((p.parent.bind s.flag?).elim [] fun g => s.flags.filter fun x => x.encloses g) ++ [f] := by
  have hplace : s.place? id = some p := (place?_of_flag? hf).trans hp
  have hlt : id < s.flags.length := (List.getElem?_eq_some_iff.mp hf).1
  have hself : f.encloses f :=
    (encloses_iff hnested hdistinct hf hf hp).mpr Relation.ReflTransGen.refl
  have htake : s.flags.take (id + 1) = s.flags.take id ++ [f] := by
    rw [List.take_add_one, show s.flags[id]? = some f from hf]
    rfl
  rw [filter_encloses_eq_take hnested hdistinct hf hp (Nat.lt_succ_self id), htake,
    List.filter_append, List.filter_singleton, hself, cond_true, List.append_left_inj]
  -- What is left to compare are the flags before it.
  have hbefore : ∀ g ∈ s.flags.take id, ∃ i < id, s.flag? i = some g := by
    intro g hg
    obtain ⟨i, hi⟩ := List.mem_iff_getElem?.mp hg
    rw [List.getElem?_take] at hi
    split at hi
    next hlt => exact ⟨i, hlt, hi⟩
    next => cases hi
  cases hparent : p.parent with
  | none =>
    refine List.filter_eq_nil_iff.mpr fun g hg henc => ?_
    obtain ⟨i, hi, hgi⟩ := hbefore g hg
    have hsurrounds := (encloses_iff hnested hdistinct hgi hf hp).mp henc
    rcases hsurrounds.cases_tail with rfl | ⟨b, -, q, hq, hqb⟩
    · exact Nat.lt_irrefl _ hi
    · cases hplace.symm.trans hq
      cases hparent.symm.trans hqb
  | some a =>
    obtain ⟨ha, q, hq, -⟩ := hnested.inside hplace hparent
    obtain ⟨g, hg, hgq⟩ := Option.bind_eq_some_iff.mp hq
    rw [Option.bind_some, hg, Option.elim_some,
      filter_encloses_eq_take hnested hdistinct hg hgq ha]
    refine List.filter_congr fun x hx => ?_
    obtain ⟨i, hi, hxi⟩ := hbefore x hx
    rw [Bool.eq_iff_iff, encloses_iff hnested hdistinct hxi hf hp,
      encloses_iff hnested hdistinct hxi hg hgq]
    constructor
    · intro h
      rcases h.cases_tail with rfl | ⟨b, hb, r, hr, hrb⟩
      · exact absurd hi (Nat.lt_irrefl _)
      · cases hplace.symm.trans hr
        cases hparent.symm.trans hrb
        exact hb
    · intro h
      exact h.tail ⟨p, hplace, hparent⟩

/-- A flag has the example of its schema, or else what the example of its parent holds for its
property. -/
theorem exampleOf_eq {id : Nat} {f : Flag} {p : Place} (hf : s.flag? id = some f)
    (hp : f.place? = some p) :
    s.exampleOf f = p.schema.exampleValue.or
      (((p.parent.bind s.flag?).bind s.exampleOf).bind fun v => v.member? p.property) := by
  rw [exampleOf, filter_encloses hnested hdistinct hf hp, List.foldl_append, List.foldl_cons,
    List.foldl_nil, hp]
  dsimp only
  cases hown : p.schema.exampleValue with
  | some v => rfl
  | none => cases p.parent.bind s.flag? <;> rfl

end Enclosing

/-! ## Arguments for flags -/

/-- The argument for a flag that has an example. -/
def exampleEntryOf? (s : FlagSet) (id : Nat) : Option ExampleEntry :=
  (s.flag? id).bind fun f =>
    (s.exampleOf f).map fun v => ⟨"--" ++ f.name ++ "=" ++ quoteExample v, f.name⟩

theorem exampleEntries_eq (s : FlagSet) :
    s.exampleEntries = (s.roots ++ s.children).filterMap s.exampleEntryOf? :=
  List.filterMap_filterMap

theorem mem_exampleEntries_iff {s : FlagSet} {e : ExampleEntry} :
    e ∈ s.exampleEntries ↔ ∃ id ∈ s.roots ++ s.children, s.exampleEntryOf? id = some e := by
  rw [exampleEntries_eq, List.mem_filterMap]

section Entries

variable {s : FlagSet} {id : Nat} {e : ExampleEntry} (h : s.exampleEntryOf? id = some e)

include h

/-- The argument is for the flag that it was made for. -/
theorem name_of_exampleEntryOf? : e.name = s.name id := by
  obtain ⟨f, hf, h⟩ := Option.bind_eq_some_iff.mp h
  obtain ⟨v, -, rfl⟩ := Option.map_eq_some_iff.mp h
  exact (name_of_flag? hf).symm

/-- The argument is a token that gives a text to this flag. -/
theorem isToken_of_exampleEntryOf? : e.IsToken := by
  obtain ⟨f, -, h⟩ := Option.bind_eq_some_iff.mp h
  obtain ⟨v, -, rfl⟩ := Option.map_eq_some_iff.mp h
  exact ⟨_, rfl⟩

end Entries

section Named

variable {s : FlagSet} (hlisted : s.Listed) (hnamed : s.WellNamed)

include hlisted hnamed

/-- Flags with the same name are the same. -/
theorem WellNamed.eq_of_name_eq {id other : Nat} (hid : id ∈ s.roots ++ s.children)
    (hother : other ∈ s.roots ++ s.children) (h : s.name id = s.name other) : id = other := by
  obtain ⟨p, hp⟩ := hlisted.mem_iff.mp hid
  obtain ⟨q, hq⟩ := hlisted.mem_iff.mp hother
  have hlookup := hnamed.lookup?_name hp
  rw [h, hnamed.lookup?_name hq] at hlookup
  exact (Option.some.inj hlookup).symm

/-- No two arguments are for the same name. -/
theorem pairwise_name_exampleEntries :
    s.exampleEntries.Pairwise fun a b => a.name ≠ b.name := by
  rw [exampleEntries_eq, List.pairwise_filterMap]
  refine hlisted.nodup.imp_of_mem fun {id other} hid hother hne => ?_
  intro a ha b hb hname
  rw [name_of_exampleEntryOf? ha, name_of_exampleEntryOf? hb] at hname
  exact hne (hnamed.eq_of_name_eq hlisted hid hother hname)

/-- Sorting puts the arguments of different flags in order. -/
theorem inOrder_mergeSort : InOrder (s.exampleEntries.mergeSort ExampleEntry.le) := by
  have hperm := List.mergeSort_perm s.exampleEntries ExampleEntry.le
  have hname : (s.exampleEntries.mergeSort ExampleEntry.le).Pairwise fun a b => a.name ≠ b.name :=
    (hperm.pairwise_iff fun {_ _} hab => hab.symm).mpr (pairwise_name_exampleEntries hlisted hnamed)
  have hle := ExampleEntry.pairwise_mergeSort s.exampleEntries
  refine ⟨fun e he => ?_, hname, (hle.and hname).imp ?_⟩
  · obtain ⟨id, -, hid⟩ := mem_exampleEntries_iff.mp (hperm.mem_iff.mp he)
    exact isToken_of_exampleEntryOf? hid
  · rintro a b ⟨hab, hne⟩
    refine lt_of_le_of_ne hab fun heq => hne ?_
    exact congrArg (fun key => (ofLex key).2) heq

end Named

/-! ## Names and parents -/

/-- What the name of a flag is made of apart from the name of the parent. -/
def segment (p : Place) : String :=
  if p.parent.isNone then rootCandidate p.property else Text.flagName p.property

/-- Names tell how flags are inside of each other: none has marks, and there are no dots but those
behind the names of parents. -/
structure Dotted (s : FlagSet) : Prop where
  name_eq : ∀ {id : Nat} {p : Place}, s.place? id = some p → s.name id = s.candidate p
  dot_notMem : ∀ {id : Nat} {p : Place}, s.place? id = some p → '.' ∉ (segment p).toList

/-- The names of all flags can be looked through. -/
instance (s : FlagSet) : Decidable s.Dotted :=
  decidable_of_iff (∀ id < s.flags.length, ∀ p ∈ s.place? id,
      s.name id = s.candidate p ∧ '.' ∉ (segment p).toList)
    ⟨fun h => ⟨fun {id p} hp => (h id (lt_length_of_place? hp) p hp).1,
        fun {id p} hp => (h id (lt_length_of_place? hp) p hp).2⟩,
      fun h _ _ _ hp => ⟨h.name_eq hp, h.dot_notMem hp⟩⟩

section Dotted

variable {s : FlagSet} (hdotted : s.Dotted)

include hdotted

/-- The name of a child flag is that of its parent with a dot and a segment. -/
theorem Dotted.toList_name {id a : Nat} {p : Place} (hp : s.place? id = some p)
    (hparent : p.parent = some a) :
    (s.name id).toList = (s.name a).toList ++ '.' :: (segment p).toList := by
  rw [hdotted.name_eq hp, candidate, segment, hparent]
  simp [childCandidate]

/-- The flag for a place covers the flags for the places around it. -/
theorem Dotted.covers_of_surrounds {a d : Nat} (h : s.Surrounds a d) (hne : d ≠ a) :
    covers (s.name d) (s.name a) := by
  induction h with
  | refl => exact absurd rfl hne
  | @tail b c hab hparent ih =>
    obtain ⟨p, hp, hparent⟩ := hparent
    have hcb : covers (s.name c) (s.name b) := covers_iff.mpr ⟨_, hdotted.toList_name hp hparent⟩
    by_cases hba : b = a
    · exact hba ▸ hcb
    · exact covers_trans hcb (ih hba)

/-- The name of a flag goes on with a dot from that of another one if and only if the flag is inside
of the other one. -/
theorem Dotted.covers_iff_surrounds (hlisted : s.Listed) (hnamed : s.WellNamed) (hnested : s.Nested)
    {a d : Nat} {p q : Place} (hq : s.place? a = some q) (hp : s.place? d = some p) :
    covers (s.name d) (s.name a) ↔ s.Surrounds a d ∧ d ≠ a := by
  refine ⟨fun h => ?_, fun h => hdotted.covers_of_surrounds h.1 h.2⟩
  -- Parents come earlier, so what holds of the parent is known.
  induction d using Nat.strongRecOn generalizing p with
  | _ d ih =>
    obtain ⟨rest, hrest⟩ := covers_iff.mp h
    cases hparent : p.parent with
    | none =>
      have hdot := hdotted.dot_notMem hp
      have hname : s.name d = segment p := by
        rw [hdotted.name_eq hp, candidate, segment, hparent]
        rfl
      rw [← hname, hrest] at hdot
      exact absurd (by simp) hdot
    | some b =>
      obtain ⟨hbd, r, hr, -⟩ := hnested.inside hp hparent
      have hdot := hdotted.dot_notMem hp
      have hstep : s.IsParent b d := ⟨p, hp, hparent⟩
      rw [hdotted.toList_name hp hparent] at hrest
      obtain hname | ⟨more, -, hmore⟩ | ⟨more, hmore, -⟩ :=
        Text.eq_or_append_of_append_cons_eq hrest
      · obtain rfl := hnamed.eq_of_name_eq hlisted (hlisted.mem_iff.mpr ⟨r, hr⟩)
          (hlisted.mem_iff.mpr ⟨q, hq⟩) (String.toList_injective hname)
        exact ⟨Relation.ReflTransGen.single hstep, Nat.ne_of_gt hbd⟩
      · exact absurd (by simp [hmore]) hdot
      · obtain ⟨hsurrounds, -⟩ := ih b hbd hr (covers_iff.mpr ⟨more, hmore⟩)
        refine ⟨hsurrounds.tail hstep, Nat.ne_of_gt ?_⟩
        exact Nat.lt_of_le_of_lt (le_of_surrounds hnested hsurrounds) hbd

end Dotted

/-! ## The arguments that are kept -/

/-- The arguments in the usage example of a command. -/
def keptEntries (s : FlagSet) : List ExampleEntry :=
  dropCovered none (s.exampleEntries.mergeSort ExampleEntry.le)

/-- Of all arguments of the example in their order, `a` is the one right before `b`. -/
def Precedes (s : FlagSet) (a b : ExampleEntry) : Prop :=
  a ∈ s.exampleEntries ∧ b ∈ s.exampleEntries ∧ a.key < b.key ∧
    ∀ c ∈ s.exampleEntries, ¬(a.key < c.key ∧ c.key < b.key)

/-- An argument comes between the one for a flag with the name and those for flags inside of it: it
is for a name that goes on with a character between the dot and the equals sign. -/
def Parted (s : FlagSet) (name : String) : Prop :=
  ∃ x ∈ s.exampleEntries, ∃ c, '.' < c ∧ c < '=' ∧ GoesOn x.name name c

section Kept

variable {s : FlagSet} (hlisted : s.Listed) (hnamed : s.WellNamed)

include hlisted hnamed

/-- Sorted arguments are next to each other when nothing comes between them in order. -/
theorem infix_pair_mergeSort_iff {a b : ExampleEntry} :
    [a, b] <:+: s.exampleEntries.mergeSort ExampleEntry.le ↔ s.Precedes a b := by
  rw [infix_pair_iff (inOrder_mergeSort hlisted hnamed).key_lt]
  simp only [List.mem_mergeSort, Precedes]

/-- An argument is kept unless the one right before it covers it. -/
theorem mem_keptEntries_iff {e : ExampleEntry} :
    e ∈ s.keptEntries ↔
      e ∈ s.exampleEntries ∧ ∀ d, s.Precedes d e → ¬covers d.name e.name := by
  rw [keptEntries, mem_dropCovered_iff (inOrder_mergeSort hlisted hnamed), List.mem_mergeSort]
  simp only [infix_pair_mergeSort_iff hlisted hnamed]

variable (hequals : ∀ id ∈ s.roots ++ s.children, '=' ∉ (s.name id).toList)

include hequals

/-- Without equals signs in names, the names of the flags with examples decide. -/
theorem mem_keptEntries_iff_parted {e : ExampleEntry} (he : e ∈ s.exampleEntries) :
    e ∈ s.keptEntries ↔
      (∀ d ∈ s.exampleEntries, ¬covers d.name e.name) ∨ s.Parted e.name := by
  have hnames : ∀ d ∈ s.exampleEntries.mergeSort ExampleEntry.le, '=' ∉ d.name.toList := by
    intro d hd
    obtain ⟨id, hid, hentry⟩ := mem_exampleEntries_iff.mp (List.mem_mergeSort.mp hd)
    rw [name_of_exampleEntryOf? hentry]
    exact hequals id hid
  have hpair := exists_pair_covers_iff (inOrder_mergeSort hlisted hnamed) hnames
    (List.mem_mergeSort.mpr he)
  simp only [infix_pair_mergeSort_iff hlisted hnamed, List.mem_mergeSort] at hpair
  have hiff : e ∈ s.keptEntries ↔ ¬∃ d, s.Precedes d e ∧ covers d.name e.name := by
    rw [mem_keptEntries_iff hlisted hnamed]
    simp [he]
  rw [hiff, hpair, not_and_or]
  refine or_congr (by simp) ?_
  simp only [Parted, not_forall, not_not, exists_prop]

/-- If names tell how flags are inside of each other, the flags with examples decide. -/
theorem mem_keptEntries_iff_surrounds (hnested : s.Nested) (hdotted : s.Dotted) {id : Nat}
    (hid : id ∈ s.roots ++ s.children) {e : ExampleEntry} (hentry : s.exampleEntryOf? id = some e) :
    e ∈ s.keptEntries ↔
      (∀ d, s.Surrounds id d → d ≠ id → s.exampleEntryOf? d = none) ∨ s.Parted (s.name id) := by
  have he : e ∈ s.exampleEntries := mem_exampleEntries_iff.mpr ⟨id, hid, hentry⟩
  obtain ⟨q, hq⟩ := hlisted.mem_iff.mp hid
  rw [mem_keptEntries_iff_parted hlisted hnamed hequals he, name_of_exampleEntryOf? hentry]
  refine or_congr_left ⟨fun h d hsurrounds hne => ?_, fun h d hd hcovers => ?_⟩
  · -- Flags inside would come with arguments that cover this one.
    refine Option.eq_none_iff_forall_ne_some.mpr fun x hx => ?_
    obtain heq | ⟨b, -, p, hp, -⟩ := hsurrounds.cases_tail
    · exact hne heq
    · refine h x (mem_exampleEntries_iff.mpr ⟨d, hlisted.mem_iff.mpr ⟨p, hp⟩, hx⟩) ?_
      rw [name_of_exampleEntryOf? hx]
      exact hdotted.covers_of_surrounds hsurrounds hne
  · -- An argument that covers this one is for a flag inside of it.
    obtain ⟨other, hother, hx⟩ := mem_exampleEntries_iff.mp hd
    obtain ⟨p, hp⟩ := hlisted.mem_iff.mp hother
    rw [name_of_exampleEntryOf? hx] at hcovers
    obtain ⟨hsurrounds, hne⟩ :=
      (hdotted.covers_iff_surrounds hlisted hnamed hnested hq hp).mp hcovers
    rw [h other hsurrounds hne] at hx
    cases hx

end Kept

/-- What is written as the usage example of a command. -/
structure Exemplified (op : Descriptor) (s : FlagSet) : Prop where
  usageExample_eq : ∀ path, s.usageExample path =
    if s.keptEntries = [] then ""
    else "  " ++ path ++ " " ++ String.intercalate " " (s.keptEntries.map ExampleEntry.argument)
  /-- A flag has its own example, or what the example of its parent holds for its property. -/
  exampleOf_eq : ∀ id f p, s.flag? id = some f → f.place? = some p →
    s.exampleOf f = p.schema.exampleValue.or
      (((p.parent.bind s.flag?).bind s.exampleOf).bind fun v => v.member? p.property)
  ascending : s.keptEntries.Pairwise fun a b => a.argument ≤ b.argument
  /-- No flag has two arguments. -/
  nodup : (s.keptEntries.map ExampleEntry.name).Nodup
  /-- An argument is left out exactly if the one right before it is for a name that goes on from the
  name of its flag with a dot. -/
  mem_iff : ∀ e, e ∈ s.keptEntries ↔
    e ∈ s.exampleEntries ∧ ∀ d, s.Precedes d e → ¬covers d.name e.name
  /-- That is, exactly if an argument is for such a name and no argument comes in between. -/
  mem_iff_parted : op.Spoken → ∀ e ∈ s.exampleEntries,
    (e ∈ s.keptEntries ↔ (∀ d ∈ s.exampleEntries, ¬covers d.name e.name) ∨ s.Parted e.name)
  /-- If such names are those of the flags inside, it is exactly if one of these has an example and
  no argument comes in between. -/
  mem_iff_surrounds : op.Spoken → s.Dotted → ∀ id ∈ s.roots ++ s.children, ∀ e,
    s.exampleEntryOf? id = some e →
      (e ∈ s.keptEntries ↔
        (∀ d, s.Surrounds id d → d ≠ id → s.exampleEntryOf? d = none) ∨ s.Parted (s.name id))

/-- The usage example of an operation has each argument once and in order, and an argument is left
out for a more specific one if that comes right before it. -/
theorem usageExample_of_ofOperation {op : Descriptor} (hop : op.WellNested)
    {reserved : List String} {extras : List (String × External)} {s : FlagSet}
    (h : ofOperation op reserved extras = .ok s) : s.Exemplified op := by
  have hgrown := grown_ofOperation h
  have hlisted := listed_ofOperation h
  have hnested := nested_ofOperation h
  have hdistinct : s.Distinct := distinct_of_complete hnested hop (complete_ofOperation h)
  have hnamed := wellNamed_of_grown (noPlaces_ofReserved reserved extras)
    (indexed_ofReserved reserved extras) hgrown
  -- A name that can be spoken has no equals sign, so that the order of arguments tells names apart.
  have hequals : op.Spoken → ∀ id ∈ s.roots ++ s.children, '=' ∉ (s.name id).toList := by
    intro hspoken id hid hmem
    obtain ⟨p, hp⟩ := hlisted.mem_iff.mp hid
    obtain ⟨f, hf, hfp⟩ := Option.bind_eq_some_iff.mp hp
    rw [name_of_flag? hf] at hmem
    obtain ⟨hwritable, -⟩ :=
      writable_of_grown hspoken (noPlaces_ofReserved reserved extras) hgrown hf hfp
    exact hwritable.ne_equals hmem rfl
  -- The arguments that are kept are some of all, in their order.
  have hsublist : s.keptEntries.Sublist (s.exampleEntries.mergeSort ExampleEntry.le) :=
    dropCovered_sublist none _
  have hinOrder := inOrder_mergeSort hlisted hnamed
  constructor
  · intro path
    rw [usageExample, ← keptEntries]
    simp only [List.isEmpty_iff]
  · intro id f p hf hp
    exact exampleOf_eq hnested hdistinct hf hp
  · exact (hinOrder.key_lt.sublist hsublist).imp fun hlt => ExampleEntry.argument_le (le_of_lt hlt)
  · exact List.pairwise_map.mpr (hinOrder.name_ne.sublist hsublist)
  · exact fun e => mem_keptEntries_iff hlisted hnamed
  · exact fun hspoken e he => mem_keptEntries_iff_parted hlisted hnamed (hequals hspoken) he
  · intro hspoken hdotted id hid e hentry
    exact mem_keptEntries_iff_surrounds hlisted hnamed (hequals hspoken) hnested hdotted hid hentry

/-- An operation with an example for a name, and one for a network with a property. -/
def connect : Descriptor :=
  { name := "connect"
    parameters := .object
      [("name", { Schema.string with exampleValue := some (.string "my disk") }),
        ("network", { Schema.object [("vpc", .string)] [] with
          exampleValue := some (.object [("vpc", .string "v-1")]) })] []
    configs := .emptyObject }

theorem wellNested_connect : connect.WellNested where
  parameters := by
    have hsorted : "name" < "network" := by decide +kernel
    refine .intro (List.pairwise_pair.mpr hsorted) fun e he => ?_
    rcases List.mem_pair.mp he with rfl | rfl
    · exact .intro Dict.sorted_nil fun e he => by cases he
    · refine .intro (List.pairwise_singleton _ _) fun e he => ?_
      rw [List.mem_singleton.mp he]
      exact .intro Dict.sorted_nil fun e he => by cases he
  configs := .intro Dict.sorted_nil fun e he => by cases he

theorem spoken_connect : connect.Spoken where
  parameters := by
    refine .intro (fun e he => ?_) fun e he => ?_
    · rcases List.mem_pair.mp he with rfl | rfl <;> decide +kernel
    rcases List.mem_pair.mp he with rfl | rfl
    · exact .intro (fun e he => by cases he) fun e he => by cases he
    · refine .intro (fun e he => ?_) fun e he => ?_
      · rw [List.mem_singleton.mp he]
        decide +kernel
      · rw [List.mem_singleton.mp he]
        exact .intro (fun e he => by cases he) fun e he => by cases he
  configs := .intro (fun e he => by cases he) fun e he => by cases he

/-- The argument for the network is left out, since the one for its property says the same. -/
theorem usageExample_of_ofOperation_connect :
    ∃ s e, ofOperation connect [] [] = .ok s ∧ connect.WellNested ∧ connect.Spoken ∧ s.Dotted ∧
      s.name 1 = "network" ∧ s.exampleEntryOf? 1 = some e ∧ e ∉ s.keptEntries := by
  have hrun : (ofOperation connect [] []).toOption.any (fun s =>
      decide s.Dotted && s.roots == [0, 1] && s.name 1 == "network" &&
        (s.exampleEntryOf? 1).isSome && (s.exampleEntryOf? 2).isSome &&
        (s.place? 2).any (fun p => p.parent == some 1) &&
        s.exampleEntries.map ExampleEntry.name == ["name", "network", "network.vpc"]) = true := by
    decide +kernel
  obtain ⟨s, hs, hrun⟩ := (Option.any_eq_true _ _).mp hrun
  simp only [Bool.and_eq_true, decide_eq_true_eq, beq_iff_eq, Option.isSome_iff_exists,
    Option.any_eq_true] at hrun
  obtain ⟨⟨⟨⟨⟨⟨hdotted, hroots⟩, hname⟩, e, he⟩, x, hx⟩, p, hp, hparent⟩, hnames⟩ := hrun
  have hs := eq_ok_of_toOption hs
  refine ⟨s, e, hs, wellNested_connect, spoken_connect, hdotted, hname, he, fun hkept => ?_⟩
  have hiff := (usageExample_of_ofOperation wellNested_connect hs).mem_iff_surrounds
    spoken_connect hdotted 1 (by simp [hroots]) e he
  rcases hiff.mp hkept with hnone | ⟨y, hy, c, hdot, -, rest, hrest⟩
  · rw [hnone 2 (Relation.ReflTransGen.single ⟨p, hp, hparent⟩) (by decide)] at hx
    cases hx
  · have hmem := List.mem_map_of_mem hy (f := ExampleEntry.name)
    rw [hnames] at hmem
    rw [hname] at hrest
    generalize y.name = name at hmem hrest
    simp only [List.mem_cons, List.not_mem_nil, or_false] at hmem
    rcases hmem with rfl | rfl | rfl
    · simp at hrest
    · simp at hrest
    · obtain ⟨rfl, -⟩ : '.' = c ∧ _ := by simpa using hrest
      exact lt_irrefl _ hdot

/-- An operation with examples for a disk and for another one whose name goes on with a digit. -/
def swap : Descriptor :=
  { name := "swap"
    parameters := .object
      [("disk", { Schema.object [("size", .integer)] [] with
          exampleValue := some (.object [("size", .number (.int 10))]) }),
        ("disk2", { Schema.string with exampleValue := some (.string "x") })] []
    configs := .emptyObject }

/-- The size of the disk has an example, but the argument for the disk is not left out. -/
theorem usageExample_ne_swap :
    ∃ s, ofOperation swap [] [] = .ok s ∧ s.IsParent 0 1 ∧ (s.exampleEntryOf? 1).isSome ∧
      s.usageExample "swap" =
        "  swap --disk.size=10 --disk2=x --disk=\x7b\"size\":10\x7d" := by
  have hrun : (ofOperation swap [] []).toOption.any (fun s =>
      (s.place? 1).any (fun p => p.parent == some 0) && (s.exampleEntryOf? 1).isSome &&
        s.exampleEntries == [⟨"--disk=\x7b\"size\":10\x7d", "disk"⟩, ⟨"--disk2=x", "disk2"⟩,
          ⟨"--disk.size=10", "disk.size"⟩]) = true := by decide +kernel
  obtain ⟨s, hs, hrun⟩ := (Option.any_eq_true _ _).mp hrun
  simp only [Bool.and_eq_true, beq_iff_eq, Option.any_eq_true] at hrun
  obtain ⟨⟨⟨p, hp, hparent⟩, hentry⟩, hentries⟩ := hrun
  have hsort := ExampleEntry.mergeSort_eq_of_perm (List.reverse_perm s.exampleEntries) (by
    rw [hentries]
    simp only [← ExampleEntry.le_iff]
    decide +kernel)
  refine ⟨s, eq_ok_of_toOption hs, ⟨p, hp, hparent⟩, hentry, ?_⟩
  rw [usageExample, hsort, hentries]
  decide +kernel

end FlagSet

end ApiCommand
