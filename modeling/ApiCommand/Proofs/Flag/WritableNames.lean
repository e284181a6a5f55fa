import ApiCommand.Proofs.Flag.Growth
import ApiCommand.Proofs.Flag.Naming
import ApiCommand.Proofs.Text.FlagName

/-!
# Flag names that can be written

If every segment of every property name has a letter or a number, then the names of all flags for
places can be written on a command line (`writable_of_grown`): the marks, the dots and what stands
for an underscore in front keep a name that can be written as it is.
-/

namespace ApiCommand

open Text Unicode

/-- Every segment of every property name in the schema, at any depth, has a letter or a number. -/
inductive Schema.Spoken : Schema → Prop
  | intro {s : Schema} (names : ∀ e ∈ s.properties, Text.Spoken e.1.toList)
      (inside : ∀ e ∈ s.properties, e.2.Spoken) : s.Spoken

/-- The properties of such a schema have names that can be spoken, and so do those inside of them.
-/
theorem Schema.Spoken.of_mem {s : Schema} (h : s.Spoken) {e : String × Schema}
    (he : e ∈ s.properties) : Text.Spoken e.1.toList ∧ e.2.Spoken := by
  cases h with
  | intro names inside => exact ⟨names e he, inside e he⟩

/-- Every segment of every property name of the operation has a letter or a number. -/
structure Descriptor.Spoken (op : Descriptor) : Prop where
  parameters : op.parameters.Spoken
  configs : op.configs.Spoken

namespace FlagSet

theorem writable_conflictMark (isConfig : Bool) : Writable (conflictMark isConfig).toList := by
  have hdot : (conflictMark isConfig).toList.all (fun c => c == '.' || !isSeparator c) = true := by
    cases isConfig <;> decide
  refine ⟨by cases isConfig <;> exact ⟨_, rfl, by decide⟩, fun c hc => .inr ?_⟩
  have hc := List.all_eq_true.mp hdot c hc
  rwa [Bool.or_eq_true, beq_iff_eq, Bool.not_eq_true'] at hc

/-- Marks that can be written leave a name that can be. -/
theorem writable_marked {mark name : String} (hmark : Writable mark.toList)
    (hname : Writable name.toList) (k : Nat) : Writable (marked mark k name).toList := by
  induction k with
  | zero => exact hname
  | succ k ih =>
    rw [marked, String.toList_append]
    exact hmark.append ih.mem

/-- A new name can be written if its candidate can be. -/
theorem writable_nameFor (s : FlagSet) (isConfig : Bool) {candidate : String}
    (h : Writable candidate.toList) : Writable (s.nameFor isConfig candidate).toList := by
  obtain ⟨k, -, heq, -⟩ :=
    exists_freshName_eq s.names (conflictMark isConfig) s.names.length candidate
  rw [nameFor, heq]
  exact writable_marked (writable_conflictMark isConfig) h k

/-- The name of a property makes a candidate that can be written. -/
theorem writable_rootCandidate {property : String} (h : Text.Spoken property.toList) :
    Writable (rootCandidate property).toList := by
  unfold rootCandidate
  split
  next rest hrest =>
    rw [hrest] at h
    refine writable_flagName ?_
    have hcontrol := h.of_underscore.control
    rwa [← String.toList_ofList (l := rest), ← String.toList_append] at hcontrol
  next => exact writable_flagName h

/-- So does the name of a property behind that of its parent. -/
theorem writable_childCandidate {parentName property : String} (hparent : Writable parentName.toList)
    (h : Text.Spoken property.toList) : Writable (childCandidate parentName property).toList := by
  rw [childCandidate, String.toList_append, String.toList_append, List.append_assoc]
  exact hparent.dot (writable_flagName h)

/-- The names of flags for places can be written, and so can those of the flags that are made for
what is inside of them. -/
theorem writable_of_grown {op : Descriptor} (hop : op.Spoken) {start s : FlagSet}
    (hstart : start.NoPlaces) (h : Grown op start s) {id : Nat} {f : Flag} {p : Place}
    (hf : s.flag? id = some f) (hp : f.place? = some p) :
    Writable f.name.toList ∧ p.schema.Spoken := by
  -- Only the flag that a step adds is new, and what it is named after can be written.
  induction h generalizing id f p with
  | start =>
    have hnone := hstart.place?_eq id
    rw [place?_of_flag? hf, hp] at hnone
    cases hnone
  | positionals ids _ ih => exact ih hf hp
  | @root s d _ hd ih =>
    rw [flag?_addPlace] at hf
    split at hf
    next =>
      cases hf
      cases hp
      obtain ⟨e, he, hde⟩ := mem_declarationsOf_iff.mp hd
      have hinput : (op.inputSchema d.isConfig).Spoken := by
        cases d.isConfig
        · exact hop.parameters
        · exact hop.configs
      obtain ⟨hname, hschema⟩ := hinput.of_mem he
      have hproperty : d.property = e.1 := congrArg Declaration.property hde
      have hinner : d.schema = e.2 := congrArg Declaration.schema hde
      rw [← hproperty] at hname
      rw [← hinner] at hschema
      exact ⟨writable_nameFor s d.isConfig (writable_rootCandidate hname), hschema⟩
    next => exact ih hf hp
  | @inside s a g q d _ hg hq hd ih =>
    rw [flag?_addPlace] at hf
    split at hf
    next =>
      cases hf
      cases hp
      obtain ⟨hparent, hspoken⟩ := ih hg hq
      unfold Schema.inner at hd
      split at hd
      next =>
        obtain ⟨e, he, rfl⟩ := List.mem_map.mp hd
        obtain ⟨hname, hschema⟩ := hspoken.of_mem he
        exact ⟨writable_nameFor s q.isConfig (writable_childCandidate hparent hname), hschema⟩
      next => cases hd
    next => exact ih hf hp

end FlagSet

end ApiCommand
