import ApiCommand.Command.Description
import ApiCommand.Proofs.Command.Rearrangement
import ApiCommand.Proofs.Flag.Offspring
import ApiCommand.Proofs.Flag.WritableNames
import ApiCommand.Proofs.Value.Decode

/-!
# One token for one flag

The flags of a command have names that can be written and that differ from each other and from the
command's own names (`Callable`). So a command line with the single token `--name=value` does what
giving the value to the flag does (`Callable.applyArguments_token`), whatever the value looks like.
-/

namespace ApiCommand

namespace FlagSet

/-! ## Names of a command -/

/-- What makes the flags of a command different for those who write command lines. -/
structure Callable (s : FlagSet) : Prop where
  nodup : s.commandFlags.Nodup
  isSome_flag? : ∀ id ∈ s.commandFlags, (s.flag? id).isSome
  lookup?_name : ∀ id ∈ s.commandFlags, s.lookup? (s.name id) = some id
  mem_of_place? : ∀ id p, s.place? id = some p → id ∈ s.roots ++ s.children
  writable : ∀ id ∈ s.roots ++ s.children, Text.Writable (s.name id).toList
  /-- The flags of the command itself are the only ones with their names. -/
  extras : s.extras.map s.name = [Call.followFlag, Call.linkFlag]
  /-- The name of the flag for help stands for a flag that the command does not accept. -/
  help : ∃ id, s.lookup? "help" = some id ∧ id ∉ s.commandFlags

/-- Only the names, the places and the lists of flags matter. -/
theorem Callable.congr {s t : FlagSet} (h : s.Callable)
    (hflag : ∀ id, (t.flag? id).map Flag.name = (s.flag? id).map Flag.name)
    (hplace : ∀ id, t.place? id = s.place? id)
    (hnames : t.names = s.names) (hroots : t.roots = s.roots) (hchildren : t.children = s.children)
    (hextras : t.extras = s.extras) : t.Callable := by
  have hname : t.name = s.name := funext fun id => by rw [name, hflag, name]
  have hsome : ∀ id, (t.flag? id).isSome = (s.flag? id).isSome := fun id => by
    rw [← Option.isSome_map (f := Flag.name), hflag, Option.isSome_map]
  have hcommand : t.commandFlags = s.commandFlags := by
    rw [commandFlags, hroots, hchildren, hextras, commandFlags]
  have hlookup : t.lookup? = s.lookup? := funext fun other => by rw [lookup?, hnames, lookup?]
  -- Each of the conditions reads the set through these functions only.
  constructor
  · rw [hcommand]
    exact h.nodup
  · simp only [hcommand, hsome]
    exact h.isSome_flag?
  · rw [hcommand, hname, hlookup]
    exact h.lookup?_name
  · simp only [hplace, hroots, hchildren]
    exact h.mem_of_place?
  · rw [hroots, hchildren, hname]
    exact h.writable
  · rw [hextras, hname]
    exact h.extras
  · rw [hcommand, hlookup]
    exact h.help

/-- Adding properties leaves the names of the command's own flags alone. -/
theorem extras_of_grown {op : Descriptor} {start s : FlagSet} (h : Grown op start s) :
    s.extras = start.extras := by
  have hadd : ∀ (t : FlagSet) (name : String) (hidden : Bool) (p : Place),
      (t.addPlace name hidden p).extras = t.extras := by
    intro t name hidden p
    unfold addPlace
    split <;> rfl
  induction h with
  | start => rfl
  | positionals ids _ ih => exact ih
  | root _ _ ih => rw [hadd, ih]
  | inside _ _ _ _ ih => rw [hadd, ih]

section Operation

variable {op : Descriptor} {s : FlagSet}
  (h : ofOperation op Call.reservedNames Call.ownFlags = .ok s)

include h

/-- The flags of the command itself are the first ones, and none of them stands for a place. -/
theorem own_ofOperation {id : Nat} {name : String}
    (hid : ["help", Call.followFlag, Call.linkFlag][id]? = some name) :
    s.lookup? name = some id ∧ (∃ f, s.flag? id = some f ∧ f.name = name) ∧
      id ∉ s.roots ++ s.children := by
  have hgrown := grown_ofOperation h
  have hnames : (ofReserved Call.reservedNames Call.ownFlags).flags.map Flag.name =
      ["help", Call.followFlag, Call.linkFlag] := rfl
  have hlookup : (ofReserved Call.reservedNames Call.ownFlags).lookup? name = some id := by
    match id, hid with
    | 0, hid => cases hid; rfl
    | 1, hid => cases hid; rfl
    | 2, hid => cases hid; rfl
  -- Flags that are made later leave these and their names as they are.
  rw [← hnames, List.getElem?_map] at hid
  obtain ⟨f, hf, hname⟩ := Option.map_eq_some_iff.mp hid
  refine ⟨lookup?_of_grown hgrown hlookup, ⟨f, flag?_of_isPrefix hgrown.isPrefix hf, hname⟩, ?_⟩
  rw [(listed_ofOperation h).mem_iff,
    place?_eq_of_isPrefix hgrown.isPrefix (List.getElem?_eq_some_iff.mp hf).1,
    (noPlaces_ofReserved _ _).place?_eq id]
  rintro ⟨p, hp⟩
  cases hp

/-- The command accepts the flags for places, and those that follow a link. -/
theorem mem_commandFlags_iff {id : Nat} :
    id ∈ s.commandFlags ↔ id ∈ s.roots ++ s.children ∨ id = 1 ∨ id = 2 := by
  have hextras : s.extras = [1, 2] := extras_of_grown (grown_ofOperation h)
  rw [commandFlags, hextras, List.mem_append, List.mem_pair]

/-- The command does not accept the same flag twice. -/
theorem nodup_commandFlags : s.commandFlags.Nodup := by
  have hextras : s.extras = [1, 2] := extras_of_grown (grown_ofOperation h)
  rw [commandFlags, hextras, List.nodup_append]
  have hown : ∀ {id : Nat} {name : String},
      ["help", Call.followFlag, Call.linkFlag][id]? = some name → id ∉ s.roots ++ s.children :=
    fun hid => (own_ofOperation h hid).2.2
  refine ⟨(listed_ofOperation h).nodup, by decide, ?_⟩
  rintro id hid other hother rfl
  rcases List.mem_pair.mp hother with rfl | rfl
  · exact hown rfl hid
  · exact hown rfl hid

/-- The flags that the command accepts are there, and the table of names has them. -/
theorem exists_flag?_of_mem_commandFlags {id : Nat} (hid : id ∈ s.commandFlags) :
    ∃ f, s.flag? id = some f ∧ s.lookup? f.name = some id := by
  have hnamed := wellNamed_of_grown (noPlaces_ofReserved _ _) (indexed_ofReserved _ _)
    (grown_ofOperation h)
  have hown : ∀ {name : String}, ["help", Call.followFlag, Call.linkFlag][id]? = some name →
      ∃ f, s.flag? id = some f ∧ s.lookup? f.name = some id := by
    intro name hname
    obtain ⟨hlookup, ⟨f, hf, rfl⟩, -⟩ := own_ofOperation h hname
    exact ⟨f, hf, hlookup⟩
  rcases (mem_commandFlags_iff h).mp hid with hmem | rfl | rfl
  · obtain ⟨p, hp⟩ := (listed_ofOperation h).mem_iff.mp hmem
    obtain ⟨f, hf, -⟩ := Option.bind_eq_some_iff.mp hp
    have hlookup := hnamed.lookup?_name hp
    rw [name_of_flag? hf] at hlookup
    exact ⟨f, hf, hlookup⟩
  · exact hown rfl
  · exact hown rfl

/-- The flags of an operation whose names can be spoken can be told apart on a command line. -/
theorem callable_ofOperation (hop : op.Spoken) : s.Callable := by
  have hlisted := listed_ofOperation h
  -- The command's own flags come first: the help, then the two for links.
  obtain ⟨hhelp, -, hhelpPlace⟩ : s.lookup? "help" = some 0 ∧ _ := own_ofOperation h rfl
  have hname : ∀ {id : Nat} {name : String},
      ["help", Call.followFlag, Call.linkFlag][id]? = some name → s.name id = name := by
    intro id name hid
    obtain ⟨-, ⟨f, hf, rfl⟩, -⟩ := own_ofOperation h hid
    exact name_of_flag? hf
  have hextras : s.extras = [1, 2] := extras_of_grown (grown_ofOperation h)
  refine ⟨nodup_commandFlags h, fun id hid => ?_, fun id hid => ?_,
    fun id p hp => hlisted.mem_iff.mpr ⟨p, hp⟩, fun id hid => ?_, ?_, 0, hhelp, ?_⟩
  · obtain ⟨f, hf, -⟩ := exists_flag?_of_mem_commandFlags h hid
    rw [hf]
    rfl
  · obtain ⟨f, hf, hlookup⟩ := exists_flag?_of_mem_commandFlags h hid
    rw [name_of_flag? hf, hlookup]
  · obtain ⟨p, hp⟩ := hlisted.mem_iff.mp hid
    obtain ⟨f, hf, hfp⟩ := Option.bind_eq_some_iff.mp hp
    rw [name_of_flag? hf]
    exact (writable_of_grown hop (noPlaces_ofReserved _ _) (grown_ofOperation h) hf hfp).1
  · -- The two names differ.
    have hfollow : s.name 1 = Call.followFlag := hname rfl
    have hlink : s.name 2 = Call.linkFlag := hname rfl
    rw [hextras, List.map_cons, List.map_singleton, hfollow, hlink]
  · -- The help is no flag for a place and none of the two.
    rw [mem_commandFlags_iff h]
    rintro (hmem | hid | hid)
    · exact hhelpPlace hmem
    · cases hid
    · cases hid

end Operation

/-- The flags of a command can be told apart, hidden ones shown or not. -/
theorem callable_flagsFor {op : Descriptor} (hop : op.Spoken) {showHidden : Bool} {s : FlagSet}
    (h : Call.flagsFor op showHidden = .ok s) : s.Callable := by
  refine flagsFor_induction h (callable_ofOperation · hop) fun {t} ht => ?_
  exact ht.congr (map_flag?_revealHidden t fun _ => rfl) t.place?_revealHidden rfl rfl rfl rfl

/-- What is set later does not change the names. -/
theorem Callable.reached {start s : FlagSet} (h : start.Callable) (hs : Reachable start s) :
    s.Callable := by
  have hblank := blank_of_reachable hs
  have hnames : s.blank.names = start.blank.names := congrArg _ hblank
  have hchildren : s.blank.children = start.blank.children := congrArg _ hblank
  have hextras : s.blank.extras = start.blank.extras := congrArg _ hblank
  refine h.congr (fun id => ?_) (place?_congr hblank) hnames (roots_congr hblank) hchildren hextras
  have hflag := congrArg (Option.map Flag.name) (flag?_congr hblank id)
  rw [Option.map_map, Option.map_map] at hflag
  exact hflag

section Callable

variable {s : FlagSet} (h : s.Callable)

include h

/-- The flag that a name is looked up for is the only one with the name. -/
theorem Callable.eq_of_name_eq {id other : Nat} (hid : id ∈ s.commandFlags)
    (hother : other ∈ s.commandFlags) (hname : s.name id = s.name other) : id = other := by
  have hlookup := h.lookup?_name id hid
  rw [hname, h.lookup?_name other hother] at hlookup
  exact (Option.some.inj hlookup).symm

/-- No flag is called as the help is. -/
theorem Callable.name_ne_help {id : Nat} (hid : id ∈ s.commandFlags) : s.name id ≠ "help" := by
  obtain ⟨other, hother, hnot⟩ := h.help
  intro hname
  have hlookup := h.lookup?_name id hid
  rw [hname, hother] at hlookup
  exact hnot (Option.some.inj hlookup ▸ hid)

/-- No flag for a place has the name of a flag of the command itself. -/
theorem Callable.name_notMem {id : Nat} (hid : id ∈ s.roots ++ s.children) :
    s.name id ∉ [Call.followFlag, Call.linkFlag] := by
  rw [← h.extras]
  intro hmem
  obtain ⟨other, hother, hname⟩ := List.mem_map.mp hmem
  have heq := h.eq_of_name_eq (List.mem_append_right _ hother) (List.mem_append_left _ hid) hname
  exact (List.nodup_append.mp h.nodup).2.2 id hid other hother heq.symm

/-- No flag has the name that collects the positional words. -/
theorem Callable.name_ne_collectorId {id : Nat} (hid : id ∈ s.commandFlags) :
    s.name id ≠ CommandDescription.collectorId := by
  rcases List.mem_append.mp hid with hplace | hextra
  · -- The name of the collector starts with a separator.
    obtain ⟨c, hc, hseparator⟩ := (h.writable id hplace).head
    intro hname
    rw [hname] at hc
    cases hc
    exact absurd hseparator (by decide)
  · have hown : s.name id ∈ s.extras.map s.name := List.mem_map_of_mem hextra
    rw [h.extras] at hown
    intro hname
    rw [hname] at hown
    exact absurd hown (by decide)

/-- The arguments of the command have different names, and none has that of the argument for
help. -/
theorem Callable.nodup_arguments (op : Descriptor) (path : String) :
    ("help" :: (CommandDescription.ofFlags op s path).arguments.map CommandArgument.id).Nodup := by
  -- Each flag has one argument, with the name of the flag.
  have hids : (s.commandFlags.filterMap (CommandDescription.argumentFor s)).map
      CommandArgument.id = s.commandFlags.map s.name := by
    rw [List.map_filterMap, ← List.filterMap_eq_map]
    refine List.filterMap_congr fun id hid => ?_
    obtain ⟨f, hf⟩ := Option.isSome_iff_exists.mp (h.isSome_flag? id hid)
    rw [CommandDescription.argumentFor, hf]
    exact congrArg some (name_of_flag? hf).symm
  -- Two flags with one name would be looked up as one.
  have hnodup : (s.commandFlags.map s.name).Nodup :=
    h.nodup.map_on fun id hid other hother hname => h.eq_of_name_eq hid hother hname
  have hcollector : [CommandDescription.collector s].map CommandArgument.id =
      [CommandDescription.collectorId] := rfl
  rw [CommandDescription.ofFlags, List.map_append, hids, hcollector, List.nodup_cons,
    List.nodup_append]
  refine ⟨?_, hnodup, by decide, ?_⟩
  · rw [List.mem_append, not_or]
    refine ⟨fun hmem => ?_, by decide⟩
    obtain ⟨id, hid, hname⟩ := List.mem_map.mp hmem
    exact h.name_ne_help hid hname
  · rintro name hmem other hother rfl
    obtain ⟨id, hid, rfl⟩ := List.mem_map.mp hmem
    exact h.name_ne_collectorId hid (List.mem_singleton.mp hother)

/-! ## Tokens -/

/-- The command accepts a flag by its name. -/
theorem Callable.acceptedFlag?_name {id : Nat} (hid : id ∈ s.commandFlags) :
    CommandLine.acceptedFlag? s (s.name id) = some id := by
  -- Some flag with the name is found, and there is only one.
  have hsome : (CommandLine.acceptedFlag? s (s.name id)).isSome :=
    List.find?_isSome.mpr ⟨id, hid, beq_self_eq_true _⟩
  obtain ⟨other, hother⟩ := Option.isSome_iff_exists.mp hsome
  have hname : (s.name other == s.name id) = true :=
    List.find?_some (p := fun other => s.name other == s.name id) hother
  rw [hother, h.eq_of_name_eq hid (List.mem_of_find?_eq_some hother) (beq_iff_eq.mp hname).symm]

end Callable

/-- The name of a token ends at its first equals sign, whatever its value looks like. -/
theorem argument?_token {s : FlagSet} {name : String} {id : Nat} (hequals : '=' ∉ name.toList)
    (hid : CommandLine.acceptedFlag? s name = some id) (raw : String) :
    CommandLine.argument? s ("--" ++ name ++ "=" ++ raw) = some (.value id raw) := by
  have hlist : ("--" ++ name ++ "=" ++ raw).toList =
      '-' :: '-' :: (name.toList ++ '=' :: raw.toList) := by
    rw [Value.toList_pair, String.toList_append]
    rfl
  simp only [CommandLine.argument?, hlist, Text.cut_append hequals, String.ofList_toList, hid,
    Option.map_some]

/-- No positional words, nothing to bind. -/
theorem bindPositionals_nil (host : Host) (s : FlagSet) : s.bindPositionals host [] = (s, []) := by
  unfold bindPositionals
  cases s.expandSlot.index? with
  | none => rfl
  | some k =>
    have hslot : s.positionals[k]?.toList.flatMap (fun _ => ([] : List (Nat × String))) = [] :=
      List.flatMap_eq_nil_iff.mpr fun _ _ => rfl
    simp only [bindExpanding, List.zip_nil_right, setEachIfUnset, List.drop_nil, List.take_nil,
      List.map_nil, hslot, setEach, List.append_nil, ite_self]

/-- A token for a flag does what giving the value to the flag does. -/
theorem Callable.applyArguments_token {s : FlagSet} (h : s.Callable) (host : Host) {id : Nat}
    (hid : id ∈ s.roots ++ s.children) (raw : String) :
    s.applyArguments host ["--" ++ s.name id ++ "=" ++ raw] = .ok (s.trySet host id raw) := by
  have hequals : '=' ∉ (s.name id).toList := fun hmem => (h.writable id hid).ne_equals hmem rfl
  have harg := argument?_token hequals (h.acceptedFlag?_name (List.mem_append_left _ hid)) raw
  have hread : CommandLine.read s ["--" ++ s.name id ++ "=" ++ raw] =
      .ok { occurrences := [(id, raw)] } := by
    rw [CommandLine.read_cons harg]
    rfl
  rw [applyArguments, hread]
  simp only [applyLine, setEach, bindPositionals_nil, List.append_nil]

/-- Where every segment of every property name has a letter or a number, the flags for places have
names that can be written: none is empty, starts with a hyphen, has an equals sign or white space,
or is one of the command's own names. So no two arguments of the command have one name, and whatever
was done before, the token `--name=value` does to the flags what giving the value to the flag does,
with the same issues. -/
theorem token_of_reachable {op : Descriptor} (hop : op.Spoken) {showHidden : Bool}
    {start s : FlagSet} (hstart : Call.flagsFor op showHidden = .ok start)
    (hs : Reachable start s) :
    (∀ path, ("help" ::
      (CommandDescription.ofFlags op s path).arguments.map CommandArgument.id).Nodup) ∧
    ∀ id f p, s.flag? id = some f → f.place? = some p →
      f.name ≠ "" ∧ (∀ c ∈ f.name.toList, c ≠ '=' ∧ Unicode.isWhiteSpace c = false) ∧
      f.name.toList.head? ≠ some '-' ∧
      f.name ∉ ["help", Call.followFlag, Call.linkFlag, CommandDescription.collectorId] ∧
      ∀ host raw,
        s.applyArguments host ["--" ++ f.name ++ "=" ++ raw] = .ok (s.trySet host id raw) := by
  have hcallable := (callable_flagsFor hop hstart).reached hs
  refine ⟨hcallable.nodup_arguments op, fun id f p hf hp => ?_⟩
  have hid : id ∈ s.roots ++ s.children :=
    hcallable.mem_of_place? id p ((place?_of_flag? hf).trans hp)
  -- Every flag for a place is one that the command accepts.
  have hcommand : id ∈ s.commandFlags := List.mem_append_left _ hid
  have hwritable := hcallable.writable id hid
  have hname := hcallable.name_ne_help hcommand
  have hown := hcallable.name_notMem hid
  have hcollector := hcallable.name_ne_collectorId hcommand
  have htoken := fun host => hcallable.applyArguments_token host hid
  rw [name_of_flag? hf] at hwritable hname hown hcollector htoken
  refine ⟨fun hempty => ?_, fun c hc => ⟨hwritable.ne_equals hc,
    hwritable.isWhiteSpace_eq_false hc⟩, hwritable.head?_ne, ?_, htoken⟩
  · exact hwritable.ne_nil (by rw [hempty]; rfl)
  · simp only [List.mem_cons, List.not_mem_nil, or_false, not_or] at hown ⊢
    exact ⟨hname, hown.1, hown.2, hcollector⟩

/-- An operation with a parameter whose name the command itself has, and with a sign in the name of
what is inside of it. -/
def search : Descriptor :=
  { name := "search"
    parameters := .object
      [("help", { types := ["object"], properties := [("Page=Size", .string)] })] []
    configs := .emptyObject }

theorem spoken_search : search.Spoken where
  parameters := by
    have hleaf : Schema.string.Spoken := .intro (fun e he => by cases he) fun e he => by cases he
    refine .intro (fun e he => ?_) fun e he => ?_
    · rw [List.mem_singleton.mp he]
      decide +kernel
    · rw [List.mem_singleton.mp he]
      refine .intro (fun e he => ?_) fun e he => ?_
      · rw [List.mem_singleton.mp he]
        decide +kernel
      · rw [List.mem_singleton.mp he]
        exact hleaf
  configs := .intro (fun e he => by cases he) fun e he => by cases he

/-- Once a page size is given, a token with another one that looks like a flag replaces it. -/
theorem token_of_reachable_search :
    ∃ start s, Call.flagsFor search false = .ok start ∧ Reachable start s ∧
      s = (start.trySet Host.bare 4 "10").1 ∧
      s.applyArguments Host.bare ["--param.help.page-size=--all"] =
        .ok (s.trySet Host.bare 4 "--all") := by
  have hrun : (Call.flagsFor search false).toOption.any (fun start =>
      ((start.trySet Host.bare 4 "10").1.flag? 4).any fun f =>
        f.place?.isSome && f.name == "param.help.page-size") = true := by decide +kernel
  obtain ⟨start, hstart, hrun⟩ := (Option.any_eq_true _ _).mp hrun
  simp only [Option.any_eq_true, Bool.and_eq_true, Option.isSome_iff_exists, beq_iff_eq] at hrun
  obtain ⟨f, hf, ⟨p, hp⟩, hname⟩ := hrun
  have hstart := eq_ok_of_toOption hstart
  have hs : Reachable start _ := .set Host.bare 4 "10" .start
  obtain ⟨-, hflags⟩ := token_of_reachable spoken_search hstart hs
  obtain ⟨-, -, -, -, htoken⟩ := hflags 4 f p hf hp
  refine ⟨start, _, hstart, hs, rfl, ?_⟩
  rw [← htoken, hname]
  rfl

end FlagSet

end ApiCommand
