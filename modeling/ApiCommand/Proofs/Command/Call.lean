import ApiCommand.Proofs.Flag.Resolution

/-!
# What preparing a call reports

Three steps find issues: giving values to flags, binding positional arguments, and resolution. A
call is prepared if none of them finds any (`prepare_of_read`). Otherwise all issues are reported
together, in this order, except that a flag is not reported as missing if an issue of the first two
steps names it.
-/

namespace ApiCommand

/-- The issues that are reported in place of a result. -/
def reportedIssues {α : Type} (result : Except Error α) : List Issue :=
  match result with
  | .error (.usage issues) => issues
  | _ => []

namespace FlagSet

/-! ## Issues with texts -/

/-- That flags are missing is not an issue with a text. -/
theorem missing_notMem_trySet (host : Host) (s : FlagSet) (id : Nat) (raw : String)
    (names : List String) : .missing names ∉ (s.trySet host id raw).2 := by
  have h := given_trySet host s id raw
  generalize s.trySet host id raw = r at h
  cases h <;> simp

/-- Setting entries does not report a missing flag: that is for the resolution to find. -/
theorem missing_notMem_setEach (host : Host) (s : FlagSet) (entries : List (Nat × String))
    (names : List String) : .missing names ∉ (s.setEach host entries).2 := by
  induction entries generalizing s with
  | nil => exact List.not_mem_nil
  | cons e rest ih =>
    intro hmem
    rcases List.mem_append.mp hmem with hhead | hrest
    · exact missing_notMem_trySet host s e.1 e.2 names hhead
    · exact ih _ hrest

/-- Filling what is unset does not report a missing flag either. -/
theorem missing_notMem_setEachIfUnset (host : Host) (s : FlagSet) (entries : List (Nat × String))
    (names : List String) : .missing names ∉ (s.setEachIfUnset host entries).2 := by
  induction entries generalizing s with
  | nil => exact List.not_mem_nil
  | cons e rest ih =>
    have hset : .missing names ∉ (s.setIfUnset host e.1 e.2).2 := by
      unfold setIfUnset
      split
      · exact missing_notMem_trySet host s e.1 e.2 names
      · exact List.not_mem_nil
    intro hmem
    rcases List.mem_append.mp hmem with hhead | hrest
    · exact hset hhead
    · exact ih _ hrest

/-- Binding positional words, too, reports nothing as missing. -/
theorem missing_notMem_bindPositionals (host : Host) (s : FlagSet) (args : List String)
    (names : List String) : .missing names ∉ (s.bindPositionals host args).2 := by
  unfold bindPositionals
  split
  · simp only [bindExpanding]
    split
    · simp only [List.mem_append, not_or]
      exact ⟨⟨missing_notMem_setEachIfUnset _ _ _ _, missing_notMem_setEachIfUnset _ _ _ _⟩,
        missing_notMem_setEach _ _ _ _⟩
    · exact missing_notMem_setEachIfUnset _ _ _ _
  · have hset := missing_notMem_setEach host s ((s.positionals.filter s.isUnset).zip args) names
    simp only [bindFixed]
    split_ifs <;> simp [hset]

end FlagSet

namespace Call

/-! ## Merging -/

/-- The names of the required flags without a value that no earlier issue names. -/
def unreported (s : FlagSet) (source : ValueSource) (earlier : List Issue) : List String :=
  (s.missingNames source).filter fun name => ∀ issue ∈ earlier, name ∉ issue.flags

/-- All issues in one list, without flags that are reported already. -/
def allIssues (s : FlagSet) (source : ValueSource) (earlier : List Issue) : List Issue :=
  earlier ++ s.invalidIssues source ++ FlagSet.missingEntry (unreported s source earlier)

/-- The entry for missing flags is left with the names that were not reported before. -/
theorem filterMap_missingEntry (reported names : List String) :
    (FlagSet.missingEntry names).filterMap (withoutReported reported) =
      FlagSet.missingEntry (names.filter fun name => !reported.contains name) := by
  unfold FlagSet.missingEntry
  split
  next hnone => simp [hnone]
  next =>
    simp only [List.filterMap_cons, List.filterMap_nil, withoutReported, List.isEmpty_iff]
    split <;> simp_all

/-- Merging takes out of the issues of resolution just the names that are reported already. -/
theorem mergeIssues_resolutionIssues (s : FlagSet) (source : ValueSource) (earlier : List Issue) :
    mergeIssues earlier (s.resolutionIssues source) = allIssues s source earlier := by
  have hinvalid : ∀ reported, (s.invalidIssues source).filterMap (withoutReported reported) =
      s.invalidIssues source := by
    intro reported
    rw [FlagSet.invalidIssues, List.filterMap_map]
    exact congrFun List.filterMap_eq_map _
  have hnames : ((s.missingNames source).filter fun name =>
      !(earlier.flatMap Issue.flags).contains name) = unreported s source earlier := by
    refine List.filter_congr fun name _ => ?_
    rw [Bool.eq_iff_iff]
    simp
  rw [mergeIssues, FlagSet.resolutionIssues, List.filterMap_append, hinvalid,
    filterMap_missingEntry, hnames, allIssues, List.append_assoc]

/-- If no issue was found earlier, then all required flags without a value are reported. -/
theorem allIssues_nil (s : FlagSet) (source : ValueSource) :
    allIssues s source [] = s.resolutionIssues source := by
  simp [allIssues, unreported, FlagSet.resolutionIssues]

/-- There are no issues exactly if none of the steps finds any: names are only left out if there are
issues that name them. -/
theorem allIssues_eq_nil_iff {s : FlagSet} {source : ValueSource} {earlier : List Issue} :
    allIssues s source earlier = [] ↔ earlier = [] ∧ s.resolutionIssues source = [] := by
  cases earlier with
  | nil => simp [allIssues_nil]
  | cons issue rest => simp [allIssues]

/-- If resolution finds no issue, then there are just the earlier ones. -/
theorem allIssues_of_resolutionIssues_eq_nil {s : FlagSet} {source : ValueSource}
    (h : s.resolutionIssues source = []) (earlier : List Issue) :
    allIssues s source earlier = earlier := by
  obtain ⟨hinvalid, hmissing⟩ := List.append_eq_nil_iff.mp h
  simp [allIssues, unreported, hinvalid, FlagSet.missingEntry_eq_nil_iff.mp hmissing,
    FlagSet.missingEntry]

/-- Every required flag without a value is named by an issue. -/
theorem mem_flags_allIssues {s : FlagSet} {source : ValueSource} (earlier : List Issue) {id : Nat}
    (hid : id ∈ s.roots) (hlacks : s.lacksValue source id) :
    s.name id ∈ (allIssues s source earlier).flatMap Issue.flags := by
  have hname : s.name id ∈ s.missingNames source :=
    List.mem_map_of_mem (List.mem_filter.mpr ⟨hid, hlacks⟩)
  -- The merged entry keeps the name, unless an earlier issue has it.
  by_cases hearlier : ∀ issue ∈ earlier, s.name id ∉ issue.flags
  · have hunreported : s.name id ∈ unreported s source earlier :=
      List.mem_filter.mpr ⟨hname, by simpa using hearlier⟩
    refine List.mem_flatMap.mpr ⟨.missing (unreported s source earlier), ?_, hunreported⟩
    refine List.mem_append_right _ ?_
    rw [FlagSet.missingEntry, if_neg (List.ne_nil_of_mem hunreported)]
    exact List.mem_singleton_self _
  · obtain ⟨issue, hissue, hflags⟩ : ∃ issue ∈ earlier, s.name id ∈ issue.flags := by
      simpa using hearlier
    refine List.mem_flatMap.mpr ⟨issue, ?_, hflags⟩
    exact List.mem_append_left _ (List.mem_append_left _ hissue)

/-- No flag that an earlier issue names is reported as missing. -/
theorem notMem_flags_of_missing_mem {s : FlagSet} {source : ValueSource} {earlier : List Issue}
    (hearlier : ∀ names, .missing names ∉ earlier) {names : List String}
    (hmissing : .missing names ∈ allIssues s source earlier) {name : String}
    (hname : name ∈ names) : ∀ issue ∈ earlier, name ∉ issue.flags := by
  -- Only the merged entry is about missing flags, and its names are those that are left.
  rcases List.mem_append.mp hmissing with hmem | hmem
  · rcases List.mem_append.mp hmem with hmem | hmem
    · exact absurd hmem (hearlier names)
    · obtain ⟨id, -, hid⟩ := List.mem_map.mp hmem
      cases hid
  · unfold FlagSet.missingEntry at hmem
    split at hmem
    next => cases hmem
    next =>
      cases List.mem_singleton.mp hmem
      simpa using (List.mem_filter.mp hname).2

/-! ## The steps of a call -/

/-- Once the flags are made, the arguments are given to them, and then their values are resolved. -/
theorem prepare_eq_bind (host : Host) (source : ValueSource) {op : Descriptor} {showHidden : Bool}
    (args : List String) {s : FlagSet} (hflags : flagsFor op showHidden = .ok s) :
    prepare host source op showHidden args =
      s.applyArguments host args >>= fun r => finish source r.1 r.2 := by
  unfold prepare
  rw [hflags]
  rfl

/-- Once the line is read, what is left are the two steps that give it to the flags, and
resolution. -/
theorem prepare_eq_finish (host : Host) (source : ValueSource) {op : Descriptor}
    {showHidden : Bool} {args : List String} {s : FlagSet} {line : CommandLine}
    (hflags : flagsFor op showHidden = .ok s) (hline : CommandLine.read s args = .ok line) :
    prepare host source op showHidden args =
      finish source (s.applyLine host line).1 (s.applyLine host line).2 := by
  rw [prepare_eq_bind host source args hflags, FlagSet.applyArguments, hline]
  rfl

/-- A call is ready if there are no issues at all; otherwise all of them are reported. -/
theorem finish_eq {source : ValueSource} {s : FlagSet} {inputs : Inputs}
    (hresolve : s.resolve source =
      if s.resolutionIssues source = [] then .ok inputs
      else .error (.usage (s.resolutionIssues source)))
    (earlier : List Issue) :
    finish source s earlier =
      if allIssues s source earlier = [] then .ok ⟨s, inputs⟩
      else .error (.usage (allIssues s source earlier)) := by
  by_cases hlater : s.resolutionIssues source = []
  · rw [if_pos hlater] at hresolve
    rw [allIssues_of_resolutionIssues_eq_nil hlater]
    unfold finish
    rw [hresolve]
    cases earlier <;> rfl
  · have hissues : allIssues s source earlier ≠ [] := fun h =>
      hlater (allIssues_eq_nil_iff.mp h).2
    rw [if_neg hlater] at hresolve
    rw [if_neg hissues, ← mergeIssues_resolutionIssues]
    unfold finish
    rw [hresolve]

/-- The flags of a call that is ready are in a state that is reached, and resolve to its inputs. -/
theorem reachable_of_prepare {host : Host} {source : ValueSource} {op : Descriptor}
    {showHidden : Bool} {args : List String} {call : Call}
    (h : prepare host source op showHidden args = .ok call) :
    ∃ start, flagsFor op showHidden = .ok start ∧ FlagSet.Reachable start call.flags ∧
      call.flags.resolve source = .ok call.inputs := by
  cases hflags : flagsFor op showHidden with
  | error fault =>
    unfold prepare at h
    rw [hflags] at h
    cases h
  | ok start =>
    cases hline : CommandLine.read start args with
    | error stop =>
      rw [prepare_eq_bind host source args hflags, FlagSet.applyArguments, hline] at h
      cases stop <;> cases h
    | ok line =>
      rw [prepare_eq_finish host source hflags hline] at h
      -- A call is made at the end of the one branch without issues.
      unfold finish at h
      split at h
      next inputs hresolve _ =>
        cases h
        exact ⟨start, rfl, .apply host line .start, hresolve⟩
      all_goals cases h

/-- For a command line that is read and asks for no help, let `earlier` be the values that cannot
be read, in the order of the line, and then the issues with positional arguments, and let `later` be
what resolution reports on the flags after that. The call is prepared exactly if there are neither.
Otherwise one error has the earlier issues and then the later ones, in which required flags that an
earlier issue names are left out. So there is always an issue, every required flag without a value
is named, and no flag whose value could not be read is reported as missing. -/
theorem prepare_of_read {host : Host} (source : ValueSource) {op : Descriptor} {showHidden : Bool}
    {args : List String} {s : FlagSet} {line : CommandLine}
    (hflags : flagsFor op showHidden = .ok s) (hline : CommandLine.read s args = .ok line)
    (hquiet : (s.applyLine host line).1.Quiet) :
    let given := s.setEach host line.occurrences
    let bound := given.1.bindPositionals host line.positionals
    let earlier := given.2 ++ bound.2
    let later := reportedIssues (bound.1.resolve source)
    let missing := bound.1.missingNames source
    let issues := earlier ++ bound.1.invalidIssues source ++
      FlagSet.missingEntry (missing.filter fun name => ∀ issue ∈ earlier, name ∉ issue.flags)
    later = bound.1.invalidIssues source ++ FlagSet.missingEntry missing ∧
    ((∃ call, prepare host source op showHidden args = .ok call) ↔ earlier = [] ∧ later = []) ∧
    (∀ call, prepare host source op showHidden args = .ok call →
      call.flags = bound.1 ∧ bound.1.resolve source = .ok call.inputs) ∧
    ∀ error, prepare host source op showHidden args = .error error →
      error = .usage issues ∧ issues ≠ [] ∧
      (∀ id ∈ bound.1.roots, bound.1.lacksValue source id →
        bound.1.name id ∈ issues.flatMap Issue.flags) ∧
      ∀ names, .missing names ∈ issues → ∀ name ∈ names, ∀ issue ∈ earlier,
        name ∉ issue.flags := by
  intro given bound earlier later missing issues
  obtain ⟨hrooted, hmarked, -⟩ :=
    (FlagSet.declares_flagsFor hflags).reached (.apply host line .start)
  have hresolve := FlagSet.resolve_eq hrooted hmarked source hquiet
  have hlater : later = bound.1.resolutionIssues source := by
    change reportedIssues ((s.applyLine host line).1.resolve source) = _
    rw [hresolve]
    split
    next hnone => exact hnone.symm
    next => rfl
  have hnone : issues = [] ↔ earlier = [] ∧ later = [] := by
    rw [hlater]
    exact allIssues_eq_nil_iff
  -- Applying the line is by definition what `given` and `bound` name.
  have hprepare := prepare_eq_finish host source hflags hline
  rw [finish_eq hresolve] at hprepare
  change prepare host source op showHidden args =
    if issues = [] then _ else .error (.usage issues) at hprepare
  rw [← hnone]
  refine ⟨hlater, ?_, ?_, ?_⟩
  · rw [hprepare]
    split <;> simp_all
  · intro call hcall
    rw [hprepare] at hcall
    split at hcall
    next hissues =>
      cases hcall
      have hnolater := (hnone.mp hissues).2
      rw [hlater] at hnolater
      refine ⟨rfl, ?_⟩
      change (s.applyLine host line).1.resolve source = _
      rw [hresolve]
      exact if_pos hnolater
    next => cases hcall
  · intro error herror
    rw [hprepare] at herror
    split at herror
    next => cases herror
    next hissues =>
      cases herror
      refine ⟨rfl, hissues, fun id hid hlacks => mem_flags_allIssues earlier hid hlacks, ?_⟩
      intro names hmem name hname
      refine notMem_flags_of_missing_mem (fun names => ?_) hmem hname
      rw [List.mem_append, not_or]
      exact ⟨FlagSet.missing_notMem_setEach _ _ _ _, FlagSet.missing_notMem_bindPositionals _ _ _ _⟩

/-- A size that cannot be read is not also reported as missing. -/
theorem prepare_of_read_resize :
    ∃ issues, prepare Host.bare (fun _ => none) FlagSet.resize false
        ["--size=many"] = .error (.usage issues) ∧
      issues ≠ [] ∧ .missing ["size"] ∉ issues := by
  have hrun : (match flagsFor FlagSet.resize false with
      | .error _ => false
      | .ok s =>
        match CommandLine.read s ["--size=many"] with
        | .error _ => false
        | .ok line =>
          line.occurrences.all (fun e => e.2 != FlagSet.helpWord) && line.positionals.isEmpty &&
            (s.setEach Host.bare line.occurrences).2.any
              fun issue => issue.flags.contains "size") = true := by decide +kernel
  split at hrun
  next => cases hrun
  next s hflags =>
    split at hrun
    next => cases hrun
    next line hline =>
      obtain ⟨⟨hoccurrences, hpositionals⟩, hsize⟩ := by
        simpa only [Bool.and_eq_true] using hrun
      have hquiet : (s.applyLine Host.bare line).1.Quiet :=
        FlagSet.quiet_applyLine (by simpa using hoccurrences)
          (by simp [List.isEmpty_iff.mp hpositionals])
          (fun _ _ h => (FlagSet.declares_flagsFor hflags).fresh.helpRequested h)
      obtain ⟨-, hready, -, hfailed⟩ :=
        prepare_of_read (fun _ => none) hflags hline hquiet
      obtain ⟨issue, hissue, hnamed⟩ := List.any_eq_true.mp hsize
      cases hprepare : prepare Host.bare (fun _ => none) FlagSet.resize false
        ["--size=many"] with
      | ok call =>
        have hearlier := (hready.mp ⟨call, hprepare⟩).1
        rw [(List.append_eq_nil_iff.mp hearlier).1] at hissue
        cases hissue
      | error error =>
        obtain ⟨rfl, hne, -, hnames⟩ := hfailed error hprepare
        refine ⟨_, rfl, hne, fun hmem => ?_⟩
        exact hnames ["size"] hmem "size" (List.mem_singleton_self _) issue
          (List.mem_append_left _ hissue) (by simpa using hnamed)

end Call

end ApiCommand
