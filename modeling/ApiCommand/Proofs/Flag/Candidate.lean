import ApiCommand.Flag.Completion
import ApiCommand.Proofs.Flag.Positional
import ApiCommand.Proofs.Json.FloatRoundTrip
import ApiCommand.Proofs.Value.Rendering

/-!
# Candidates for values

For a flag, completion offers texts of the values that its schema names itself
(`exists_of_mem_candidates`). Given to the flag, such a text is read as the value again, provided
that the value is of the kind that the primary type of the schema reads (`value?_of_candidate`).
-/

namespace ApiCommand

/-- The values that the schema names itself: those that it admits, if these are listed, and the
default. -/
def Schema.named (s : Schema) : List Json := s.enumValues ++ s.defaultValue.toList

/-- Only texts that are there can match. -/
theorem subset_of_matching (texts : List String) (part : String) : matching texts part ⊆ texts := by
  unfold matching
  dsimp only
  split
  · exact List.filter_sublist.subset
  · split
    · exact List.filter_sublist.subset
    · exact List.Subset.refl _

namespace FlagSet

open Value

/-- Whatever is offered for a flag is the text of a value that its schema names. -/
theorem exists_of_mem_candidates {f : Flag} {p : Place} (hp : f.place? = some p)
    {part text : String} (h : text ∈ (completeValue f part).candidates) :
    ∃ v ∈ p.schema.named, v.plainText = text := by
  have hschema : f.schema? = some p.schema := by rw [Flag.schema?, hp, Option.map_some]
  unfold completeValue valueCandidates at h
  dsimp only at h
  split at h
  · cases h
  split at h
  · cases h
  split at h
  · rw [hschema, Option.map_some, Option.getD_some] at h
    obtain ⟨v, hv, heq⟩ := List.mem_map.mp (subset_of_matching _ part h)
    exact ⟨v, List.mem_append_left _ hv, heq⟩
  · obtain ⟨hdefault, -⟩ := Option.filter_eq_some_iff.mp (Option.mem_toList.mp h)
    rw [Flag.defaultText?, Flag.place?_eq_some_iff.mp hp] at hdefault
    obtain ⟨v, hv, heq⟩ := Option.map_eq_some_iff.mp hdefault
    exact ⟨v, List.mem_append_right _ (Option.mem_toList.mpr hv), heq⟩

/-- Every candidate for a flag is the text of a value that the schema of the flag names. Unless it
asks for help or stands for a file, it can be given to the flag, and if the schema takes the value,
then this is the value of the flag from then on, whatever it held before. -/
theorem value?_of_candidate {s : FlagSet} (hs : s.Arises) (host : Host) {id : Nat} {f : Flag}
    {p : Place} (hf : s.flag? id = some f) (hp : f.place? = some p) {part text : String}
    (htext : text ∈ (completeValue f part).candidates) (hhelp : text ≠ helpWord)
    (hfile : namesFile text = false) :
    (∃ v ∈ p.schema.named, v.plainText = text) ∧
    ∀ v, v.plainText = text → p.schema.Takes v →
      ∃ t, s.set host id text = .ok t ∧ t.value? id = some v := by
  refine ⟨exists_of_mem_candidates hp htext, ?_⟩
  rintro v rfl htakes
  have hplace : s.place? id = some p := (place?_of_flag? hf).trans hp
  have hset := set_eq_of_place? host hhelp hf hp
  rw [Schema.decode_plainText host htakes hfile] at hset
  refine ⟨s.store f p v, hset, ?_⟩
  rw [value?_store f p v hs.grounded.rooted hplace hplace rfl, Json.project_graft]

/-- An operation with levels to go through, which are one and a half by default. -/
def fade : Descriptor :=
  { name := "fade"
    parameters := .object [("levels", { Schema.array .number with defaultValue := some levels })] []
    configs := .emptyObject }
where
  /-- One half. -/
  half : Binary64 := ⟨false, Nat.pow 2 52, -53⟩
  /-- One and one half. -/
  levels : Json := .array [.number (.int 1), .number (.float half)]

/-- The levels that are offered by default can be set. -/
theorem value?_of_candidate_fade :
    ∃ s f p t, ofOperation fade [] [] = .ok s ∧ s.flag? 0 = some f ∧ f.place? = some p ∧
      "[1,0.5]" ∈ (completeValue f "").candidates ∧ "[1,0.5]" ≠ helpWord ∧
      namesFile "[1,0.5]" = false ∧ p.schema.Takes fade.levels ∧
      s.set Host.bare 0 "[1,0.5]" = .ok t ∧ t.value? 0 = some fade.levels := by
  have hrun : (ofOperation fade [] []).toOption.any (fun s => (s.flag? 0).any fun f =>
      (completeValue f "").candidates.contains "[1,0.5]" && f.place?.any fun p =>
        p.schema.primaryType? == some "array") = true := by decide +kernel
  have htext : fade.levels.plainText = "[1,0.5]" := by decide +kernel
  have hhelp : "[1,0.5]" ≠ helpWord := by decide
  have hfile : namesFile "[1,0.5]" = false := by decide
  have hreadable : Json.Readable Json.maxDepth fade.levels := by
    have hhalf : Json.ReadsBack (.float fade.half) :=
      Json.readsBack_float (by decide) (by decide +kernel) (by decide +kernel)
    refine .array fun v hv => ?_
    rcases List.mem_pair.mp hv with rfl | rfl
    · exact .number ⟨by decide, by decide⟩
    · exact .number hhalf
  obtain ⟨s, hs, hrun⟩ := (Option.any_eq_true _ _).mp hrun
  obtain ⟨f, hf, hrun⟩ := (Option.any_eq_true _ _).mp hrun
  obtain ⟨hoffered, hrun⟩ := Bool.and_eq_true_iff.mp hrun
  obtain ⟨p, hp, htype⟩ := (Option.any_eq_true _ _).mp hrun
  have hmem := List.contains_iff_mem.mp hoffered
  have htakes : p.schema.Takes fade.levels := by
    unfold Schema.Takes
    rw [beq_iff_eq.mp htype]
    exact ⟨⟨_, rfl⟩, hreadable⟩
  have hs := eq_ok_of_toOption hs
  obtain ⟨-, hset⟩ := value?_of_candidate (.made hs) Host.bare hf hp hmem hhelp hfile
  obtain ⟨t, ht, hvalue⟩ := hset _ htext htakes
  exact ⟨s, f, p, t, hs, hf, hp, hmem, hhelp, hfile, htakes, ht, hvalue⟩

/-- An operation with a level that has no type and admits one string, the text of a number. -/
def tag : Descriptor :=
  { name := "tag"
    parameters := .object [("level", { enumValues := [.string "1"] })] []
    configs := .emptyObject }

/-- The string that is offered conforms to the schema. But its text is JSON, and so the level is set
to a number. -/
theorem value?_ne_tag :
    ∃ s f p t, ofOperation tag [] [] = .ok s ∧ s.flag? 0 = some f ∧ f.place? = some p ∧
      s.isUnset 0 ∧ (completeValue f "").candidates = [(Json.string "1").plainText] ∧
      p.schema.problems (.string "1") = [] ∧ (Json.string "1").plainText ≠ helpWord ∧
      namesFile (Json.string "1").plainText = false ∧
      s.set Host.bare 0 (Json.string "1").plainText = .ok t ∧
      t.value? 0 ≠ some (.string "1") := by
  have hrun : (ofOperation tag [] []).toOption.any (fun s => s.isUnset 0 &&
      ((s.flag? 0).any fun f =>
        (completeValue f "").candidates == [(Json.string "1").plainText] &&
        f.place?.any fun p => (p.schema.problems (.string "1")).isEmpty) &&
      (s.set Host.bare 0 (Json.string "1").plainText).toOption.any fun t =>
        (t.value? 0).map Json.kind == some .number) = true := by decide +kernel
  obtain ⟨s, hs, hrun⟩ := (Option.any_eq_true _ _).mp hrun
  simp only [Bool.and_eq_true, Option.any_eq_true, beq_iff_eq, List.isEmpty_iff] at hrun
  obtain ⟨⟨hunset, f, hf, hoffered, p, hp, hvalid⟩, t, ht, hkind⟩ := hrun
  refine ⟨s, f, p, t, eq_ok_of_toOption hs, hf, hp, hunset, hoffered, hvalid, by decide, by decide,
    eq_ok_of_toOption ht, fun heq => ?_⟩
  rw [heq] at hkind
  cases hkind

end FlagSet

end ApiCommand
