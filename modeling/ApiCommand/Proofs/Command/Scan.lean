import ApiCommand.Flag.Completion
import ApiCommand.Proofs.Command.Token
import ApiCommand.Proofs.Flag.PropertyPath
import ApiCommand.Proofs.Text.Split

/-!
# Scanning a command line

Completion goes over the words in front of the one that is being typed from left to right, and only
remembers a flag that waits for its value and the positional arguments so far. Reading the command
line goes by what it can begin with (`Reads`). Along this relation the scan finds the positional
arguments that reading finds, and no flag is left waiting (`Reads.foldl_step`), provided that the
scan takes the words behind a lone `--` for positional arguments, too.
-/

namespace ApiCommand

namespace CommandLine

/-! ## What a command line can begin with -/

/-- The words make the command line. -/
inductive Reads (s : FlagSet) : List String → CommandLine → Prop
  | nil : Reads s [] {}
  /-- Behind a lone `--` all words are positional. -/
  | escape (rest : List String) : Reads s ("--" :: rest) { positionals := rest }
  /-- A flag and its value in one word. -/
  | token {arg : String} {id : Nat} {value : String} {rest : List String} {l : CommandLine}
      (harg : argument? s arg = some (.value id value)) (hrest : Reads s rest l) :
      Reads s (arg :: rest) (l.withFlag id value)
  /-- A flag, and its value in the next word, whatever that looks like. -/
  | pair {arg : String} {name : List Char} {id : Nat} {value : String} {rest : List String}
      {l : CommandLine} (harg : arg.toList = '-' :: '-' :: name) (hname : name ≠ [])
      (hequals : '=' ∉ name) (hid : acceptedFlag? s (String.ofList name) = some id)
      (hrest : Reads s rest l) : Reads s (arg :: value :: rest) (l.withFlag id value)
  /-- A positional argument. -/
  | word {arg : String} {rest : List String} {l : CommandLine}
      (harg : argument? s arg = some (.word arg)) (hrest : Reads s rest l) :
      Reads s (arg :: rest) (l.withPositional arg)

/-- With a part in front, a line is read if it is read without the part. -/
theorem prepend_eq_ok {put : CommandLine → CommandLine} {r : Except LineStop CommandLine}
    {line : CommandLine} (h : prepend put r = .ok line) : ∃ l, r = .ok l ∧ put l = line := by
  unfold prepend at h
  split at h
  next l => exact ⟨l, rfl, Except.ok.inj h⟩
  next => cases h
  next => cases h

/-- A line that is read consists of parts that the relation knows. -/
theorem reads_of_read {s : FlagSet} {args : List String} {line : CommandLine}
    (h : read s args = .ok line) : Reads s args line := by
  fun_induction read s args generalizing line
  case case1 =>
    cases h
    exact .nil
  case case2 arg rest harg =>
    cases h
    rw [String.toList_inj.mp (show arg.toList = "--".toList from harg)]
    exact .escape rest
  case case3 arg body hbody harg name id value rest hid hsplit ih =>
    obtain ⟨l, hl, rfl⟩ := prepend_eq_ok h
    refine .token ?_ (ih hl)
    unfold splitFlag at hsplit
    split at hsplit
    next => cases hsplit
    next front back hcut =>
      cases hsplit
      simp only [argument?, harg, hcut, hid, Option.map_some]
  case case4 arg body hbody harg name id value rest hid hsplit ih =>
    obtain ⟨l, hl, rfl⟩ := prepend_eq_ok h
    unfold splitFlag at hsplit
    split at hsplit
    next hcut =>
      cases hsplit
      exact .pair harg hbody (Text.cut_eq_none_iff.mp hcut) hid (ih hl)
    next => cases hsplit
  case case12 arg rest hlone hflag hshort ih =>
    obtain ⟨l, hl, rfl⟩ := prepend_eq_ok h
    refine .word ?_ (ih hl)
    unfold argument?
    split
    next body hbody => exact (hflag body hbody).elim
    next c cs hother hbody => exact (hshort c cs hbody).elim
    next => rfl
  -- Everything else stops reading.
  all_goals cases h

/-- The reader finds every command line that words make. -/
theorem Reads.read_eq {s : FlagSet} {args : List String} {line : CommandLine}
    (h : Reads s args line) : read s args = .ok line := by
  induction h with
  | nil => rfl
  | escape rest => rfl
  | token harg _ ih =>
    rw [read_cons harg, ih]
    rfl
  | @pair arg name id value rest l harg hname hequals hid _ ih =>
    obtain ⟨c, cs, rfl⟩ := List.exists_cons_of_ne_nil hname
    rw [read, harg]
    simp only [splitFlag, Text.cut_eq_none_iff.mpr hequals, hid, ih]
    rfl
  | word harg _ ih =>
    rw [read_cons harg, ih]
    rfl

/-- A positional argument behind a command line is the last one. -/
theorem Reads.append_word {s : FlagSet} {args : List String} {line : CommandLine}
    (h : Reads s args line) {arg : String} (harg : argument? s arg = some (.word arg)) :
    Reads s (args ++ [arg]) { line with positionals := line.positionals ++ [arg] } := by
  induction h with
  | nil => exact .word harg .nil
  | escape rest => exact .escape (rest ++ [arg])
  | token hfirst _ ih => exact .token hfirst ih
  | pair hfirst hname hequals hid _ ih => exact .pair hfirst hname hequals hid ih
  | word hfirst _ ih => exact .word hfirst ih

/-! ## Lone hyphens -/

/-- A lone `--` stands where no flag waits for its value, with the words `after` behind it. -/
def EscapesTo (s : FlagSet) (words after : List String) : Prop :=
  ∃ before line, words = before ++ "--" :: after ∧ read s before = .ok line

theorem escapesTo_self (s : FlagSet) (after : List String) : EscapesTo s ("--" :: after) after :=
  ⟨[], {}, rfl, rfl⟩

/-- A lone `--` is still one behind words that are read. -/
theorem EscapesTo.append {s : FlagSet} {words after : List String} (h : EscapesTo s words after)
    (first : List String)
    (hfirst : ∀ before line, Reads s before line → ∃ more, Reads s (first ++ before) more) :
    EscapesTo s (first ++ words) after := by
  obtain ⟨before, line, rfl, hline⟩ := h
  obtain ⟨more, hmore⟩ := hfirst before line (reads_of_read hline)
  exact ⟨first ++ before, more, (List.append_assoc _ _ _).symm, hmore.read_eq⟩

end CommandLine

namespace FlagSet

open CommandLine

/-! ## The scan -/

/-- The names of flags that the command accepts stand for these flags, and they have values. -/
def Valued (s : FlagSet) : Prop :=
  ∀ name id, acceptedFlag? s name = some id →
    s.lookup? name = some id ∧ (s.flag? id).any Flag.takesValue

/-- The word does not look like a flag. -/
def IsPlain (word : String) : Prop := ∀ body, word.toList ≠ '-' :: '-' :: body

/-- No word behind a lone `--` looks like a flag, and no flag has the name that is left of a lone
`--` itself. -/
def EscapesPlainly (s : FlagSet) (words : List String) : Prop :=
  ∀ after, EscapesTo s words after → s.lookup? "" = none ∧ ∀ word ∈ after, IsPlain word

/-- A line without a lone `--` has nothing to go wrong behind it. -/
theorem escapesPlainly_of_notMem (s : FlagSet) {words : List String} (h : "--" ∉ words) :
    s.EscapesPlainly words := by
  rintro after ⟨before, -, rfl, -⟩
  exact absurd (List.mem_append_right _ List.mem_cons_self) h

/-- A positional word of a line does not look like a flag. -/
theorem isPlain_of_word {s : FlagSet} {word : String}
    (h : argument? s word = some (.word word)) : IsPlain word := by
  intro body hbody
  simp only [argument?, hbody] at h
  split at h
  next => cases h
  next =>
    obtain ⟨id, -, hid⟩ := Option.map_eq_some_iff.mp h
    cases hid

section Step

variable (s : FlagSet) (words : List String)

/-- The scan takes such a word as a positional one. -/
theorem step_of_isPlain {word : String} (h : IsPlain word) :
    Scan.step s { positionals := words } word = { positionals := words ++ [word] } := by
  unfold Scan.step
  rw [if_neg (by simp)]
  split
  next body hbody => exact absurd hbody (h body)
  next => rfl

/-- The scan takes all such words in their order. -/
theorem foldl_step_of_isPlain (more : List String) (h : ∀ word ∈ more, IsPlain word) :
    more.foldl (Scan.step s) { positionals := words } = { positionals := words ++ more } := by
  induction more generalizing words with
  | nil => rw [List.append_nil, List.foldl_nil]
  | cons word more ih =>
    obtain ⟨hword, hmore⟩ := List.forall_mem_cons.mp h
    rw [List.foldl_cons, step_of_isPlain s words hword, ih _ hmore, List.append_assoc,
      List.singleton_append]

/-- A flag that has its value in the same word leaves nothing behind. -/
theorem step_of_token {arg : String} {id : Nat} {value : String}
    (harg : argument? s arg = some (.value id value)) :
    Scan.step s { positionals := words } arg = { positionals := words } := by
  unfold Scan.step
  rw [if_neg (by simp)]
  split
  next body hbody =>
    have hequals : '=' ∈ body := by
      by_contra hnot
      simp only [argument?, hbody, Text.cut_eq_none_iff.mpr hnot] at harg
      cases harg
    rw [if_pos (List.contains_iff_mem.mpr hequals)]
  next hflag =>
    -- A word that does not look like a flag is no token.
    unfold argument? at harg
    split at harg
    next body hbody => exact absurd hbody (hflag body)
    next => cases harg
    next => cases harg

/-- A flag waits for its value, which is the next word whatever that looks like. -/
theorem step_step_of_pair (hs : s.Valued) {arg : String} {name : List Char} {id : Nat}
    (harg : arg.toList = '-' :: '-' :: name) (hequals : '=' ∉ name)
    (hid : acceptedFlag? s (String.ofList name) = some id) (value : String) :
    Scan.step s (Scan.step s { positionals := words } arg) value = { positionals := words } := by
  obtain ⟨hlookup, htakes⟩ := hs _ _ hid
  have hpending : Scan.step s { positionals := words } arg =
      { pending := some id, positionals := words } := by
    simp [Scan.step, harg, hequals, hlookup, htakes, Option.filter]
  rw [hpending]
  rfl

end Step

end FlagSet

namespace CommandLine

open FlagSet

/-- The scan finds the positional arguments that reading finds, and no flag is left waiting. -/
theorem Reads.foldl_step {s : FlagSet} (hs : s.Valued) {words : List String} {line : CommandLine}
    (h : Reads s words line) (hescape : s.EscapesPlainly words) (first : List String) :
    words.foldl (Scan.step s) { positionals := first } =
      { positionals := first ++ line.positionals } := by
  induction h generalizing first with
  | nil => rw [List.append_nil, List.foldl_nil]
  | escape rest =>
    obtain ⟨hname, hplain⟩ := hescape rest (escapesTo_self s rest)
    have hstep : Scan.step s { positionals := first } "--" = { positionals := first } := by
      simp [Scan.step, hname]
    -- Behind it the scan takes a word for an argument only if it does not look like a flag.
    rw [List.foldl_cons, hstep, foldl_step_of_isPlain s first rest hplain]
  | @token arg id value rest l harg _ ih =>
    have hrest : s.EscapesPlainly rest := fun after hafter =>
      hescape after (hafter.append [arg] fun _ _ hl => ⟨_, .token harg hl⟩)
    rw [List.foldl_cons, step_of_token s first harg, ih hrest]
    rfl
  | @pair arg name id value rest l harg hname hequals hid _ ih =>
    -- A `--` that is the value is skipped together with its flag.
    have hrest : s.EscapesPlainly rest := fun after hafter =>
      hescape after (hafter.append [arg, value] fun _ _ hl =>
        ⟨_, .pair harg hname hequals hid hl⟩)
    rw [List.foldl_cons, List.foldl_cons, step_step_of_pair s first hs harg hequals hid, ih hrest]
    rfl
  | @word arg rest l harg _ ih =>
    have hrest : s.EscapesPlainly rest := fun after hafter =>
      hescape after (hafter.append [arg] fun _ _ hl => ⟨_, .word harg hl⟩)
    rw [List.foldl_cons, step_of_isPlain s first (isPlain_of_word harg), ih hrest,
      List.append_assoc]
    rfl

end CommandLine

namespace FlagSet

open CommandLine

/-! ## The flags of a call -/

section Operation

variable {op : Descriptor} {s : FlagSet}

/-- Every flag of an operation takes a value. -/
theorem valued_ofOperation (h : ofOperation op Call.reservedNames Call.ownFlags = .ok s) :
    s.Valued := by
  intro name id hid
  -- The command accepts a flag by its name, and names are looked up in the same table.
  have hmem : id ∈ s.commandFlags := List.mem_of_find?_eq_some hid
  have hname : (s.name id == name) = true :=
    List.find?_some (p := fun id => s.name id == name) hid
  obtain ⟨f, hf, hlookup⟩ := exists_flag?_of_mem_commandFlags h hmem
  rw [name_of_flag? hf, beq_iff_eq] at hname
  refine ⟨hname ▸ hlookup, ?_⟩
  have hprefix := (grown_ofOperation h).isPrefix
  rcases (mem_commandFlags_iff h).mp hmem with hplace | rfl | rfl
  · obtain ⟨p, hp⟩ := (listed_ofOperation h).mem_iff.mp hplace
    rw [place?_of_flag? hf] at hp
    simp [hf, Flag.takesValue, Flag.place?_eq_some_iff.mp hp]
  -- The flags of the command itself are there from the start.
  · rw [show s.flag? 1 = some _ from flag?_of_isPrefix hprefix rfl]
    rfl
  · rw [show s.flag? 2 = some _ from flag?_of_isPrefix hprefix rfl]
    rfl

/-- Showing hidden flags changes nothing that counts for reading. -/
theorem Valued.revealHidden (h : s.Valued) : s.revealHidden.Valued := by
  intro name id hid
  rw [acceptedFlag?, name_revealHidden] at hid
  obtain ⟨hlookup, htakes⟩ := h name id hid
  exact ⟨hlookup, (any_flag?_revealHidden s (fun _ => rfl) id).trans htakes⟩

theorem valued_flagsFor {showHidden : Bool} (h : Call.flagsFor op showHidden = .ok s) :
    s.Valued :=
  flagsFor_induction h valued_ofOperation Valued.revealHidden

end Operation

/-- If the command of an operation accepts words among which there is no lone `--` but as the value
of a flag, then the scan of completion finds just the positional arguments that are read and bound,
in their order, and no flag is left waiting for its value. -/
theorem scan_of_read {op : Descriptor} {showHidden : Bool} {s : FlagSet}
    (hflags : Call.flagsFor op showHidden = .ok s) {words : List String} {line : CommandLine}
    (hread : read s words = .ok line) (hescape : ∀ after, ¬ EscapesTo s words after) :
    words.foldl (Scan.step s) {} = { pending := none, positionals := line.positionals } :=
  (reads_of_read hread).foldl_step (valued_flagsFor hflags)
    (fun after hafter => absurd hafter (hescape after)) []

/-- A lone `--` that is the value of a flag hides nothing from the scan, and neither does a value
that looks like another flag. -/
theorem scan_of_read_mount :
    ∃ s line, Call.flagsFor mount false = .ok s ∧
      read s ["--link-param", "--", "home", "--disk.label", "--follow=x", "-"] = .ok line ∧
      (∀ after, ¬ EscapesTo s
        ["--link-param", "--", "home", "--disk.label", "--follow=x", "-"] after) ∧
      line.positionals = ["home", "-"] ∧
      ["--link-param", "--", "home", "--disk.label", "--follow=x", "-"].foldl (Scan.step s) {} =
        { pending := none, positionals := ["home", "-"] } := by
  have hrun : (Call.flagsFor mount false).toOption.any (fun s =>
      (read s ["--link-param", "--", "home", "--disk.label", "--follow=x", "-"]).toOption.any
        (fun line => line.positionals == ["home", "-"]) &&
      (read s ["--link-param"]).toOption.isNone) = true := by decide +kernel
  obtain ⟨s, hs, hrun⟩ := (Option.any_eq_true _ _).mp hrun
  rw [Bool.and_eq_true, Option.any_eq_true] at hrun
  obtain ⟨⟨line, hline, hwords⟩, hopen⟩ := hrun
  have hflags := eq_ok_of_toOption hs
  have hread := eq_ok_of_toOption hline
  have hescape : ∀ after, ¬ EscapesTo s
      ["--link-param", "--", "home", "--disk.label", "--follow=x", "-"] after := by
    rintro after ⟨before, l, heq, hl⟩
    match before with
    | [] => exact absurd (List.cons.inj heq).1 (by decide)
    | [first] =>
      -- What stands in front of the only `--` is a flag without its value.
      cases heq
      rw [hl] at hopen
      cases hopen
    | first :: second :: more =>
      rw [List.cons_append, List.cons_append, List.cons.injEq, List.cons.injEq] at heq
      have hmem : "--" ∈ more ++ "--" :: after := by simp
      rw [← heq.2.2] at hmem
      exact absurd hmem (by decide)
  refine ⟨s, line, hflags, hread, hescape, beq_iff_eq.mp hwords, ?_⟩
  rw [scan_of_read hflags hread hescape, beq_iff_eq.mp hwords]

end FlagSet

end ApiCommand
