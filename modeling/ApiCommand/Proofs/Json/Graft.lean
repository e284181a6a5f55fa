import ApiCommand.Proofs.Dict
import ApiCommand.Value.Decode

/-!
# Writing inside of values

What was written at a path is read there (`project_graft`). Seen from a point on the way, the same
was written at the rest of the path (`project_graft_append`, `graft_append`), and what is neither on
the way nor beyond the end of the path is not touched (`project_graft_of_apart`).
-/

namespace ApiCommand.Json

/-- Writing stores a member in whatever object is there. -/
theorem graft_cons (key : String) (path : List String) (item : Json) (v : Option Json) :
    graft (key :: path) item v =
      object (Dict.insert (Value.currentMembers v) key
        (graft path item (v.bind fun w => w.member? key))) := by
  have hmembers : (v.map membersD).getD [] = Value.currentMembers v := by
    cases v with
    | none => rfl
    | some w => cases w <;> rfl
  have hmember : Dict.get? (Value.currentMembers v) key = v.bind fun w => w.member? key := by
    cases v with
    | none => rfl
    | some w => cases w <;> rfl
  rw [graft, hmembers, hmember]

/-- After a member is written, it is found, and other members are what they were before. -/
theorem member?_graft_cons (key other : String) (path : List String) (item : Json)
    (v : Option Json) :
    (graft (key :: path) item v).member? other =
      if key = other then some (graft path item (v.bind fun w => w.member? key))
      else v.bind fun w => w.member? other := by
  rw [graft_cons, member?, membersD, Dict.get?_insert]
  split
  next => rfl
  next =>
    cases v with
    | none => rfl
    | some w => cases w <;> rfl

/-- What is read at a path that is one name longer is a member of what is read at the path. -/
theorem project_append_singleton (path : List String) (key : String) (v : Json) :
    project (path ++ [key]) v = (project path v).bind fun w => w.member? key := by
  induction path generalizing v with
  | nil => simp [project]
  | cons first path ih =>
    rw [List.cons_append, project, project, Option.bind_assoc]
    exact congrArg _ (funext ih)

/-- Seen from a point on the way, the item was written at the rest of the path. -/
theorem project_graft_append (path rest : List String) (item : Json) (v : Option Json) :
    project path (graft (path ++ rest) item v) =
      some (graft rest item (v.bind (project path))) := by
  induction path generalizing v with
  | nil => cases v <;> rfl
  | cons key path ih =>
    rw [List.cons_append, project, member?_graft_cons, if_pos rfl, Option.bind_some, ih,
      Option.bind_assoc]
    rfl

/-- Writing at a path is writing, at any point on the way, what was there with the item written at
the rest of the path. -/
theorem graft_append (path rest : List String) (item : Json) (v : Option Json) :
    graft (path ++ rest) item v = graft path (graft rest item (v.bind (project path))) v := by
  induction path generalizing v with
  | nil => cases v <;> rfl
  | cons key path ih =>
    rw [List.cons_append, graft_cons, graft_cons, ih, Option.bind_assoc]
    rfl

/-- What was written at a path is read there. -/
theorem project_graft (path : List String) (item : Json) (v : Option Json) :
    project path (graft path item v) = some item := by
  have h := project_graft_append path [] item v
  rwa [List.append_nil] at h

/-- Writing at a path does not touch what is neither on the way nor beyond its end. -/
theorem project_graft_of_apart {path other : List String} (h : ¬path <+: other)
    (h' : ¬other <+: path) (item : Json) (v : Option Json) :
    project other (graft path item v) = v.bind (project other) := by
  induction path generalizing other v with
  | nil => exact absurd (List.nil_prefix) h
  | cons key path ih =>
    cases other with
    | nil => exact absurd (List.nil_prefix) h'
    | cons key' other =>
      rw [project, member?_graft_cons]
      split
      next heq =>
        subst heq
        rw [List.prefix_cons_inj] at h h'
        rw [Option.bind_some, ih h h', Option.bind_assoc]
        rfl
      next =>
        rw [Option.bind_assoc]
        rfl

end ApiCommand.Json
