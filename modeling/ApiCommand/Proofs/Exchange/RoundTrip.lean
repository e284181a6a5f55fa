import ApiCommand.Link.Expression
import ApiCommand.Proofs.Exchange.Document
import Mathlib.Data.List.Basic

/-!
# Expressions in exchanges that were read back

A result is read from what is written for it with everything but bodies that are null. The only
expressions that see the difference are the two for a body as a whole (`Expression.IsNullBody`):
where the body is null, they have the value null in the result and none in what is read back. All
others have the same value in both (`Expression.evaluate_kept`), and so have formulas made of them
(`Formula.evaluate_kept`).
-/

namespace ApiCommand

/-- Only the empty pointer has no tokens. -/
theorem Pointer.readTokens?_eq_some_nil_iff {p : String} : readTokens? p = some [] ↔ p = "" := by
  have hempty : p = "" ↔ p.toList = [] := by simp
  rw [readTokens?, hempty]
  split
  next heq => simp [heq]
  next rest heq => simp [heq]
  next hnil _ => simpa using hnil

namespace Expression

/-- The expression stands for a body as a whole, and in the exchange this body is null. -/
def IsNullBody (e : Expression) (r : Result) : Prop :=
  ∃ side, e = body side "" ∧ bodyOf r side = some .null

/-- What is left of a body after reading is all but a null. -/
theorem bodyOf_kept (r : Result) (side : Side) :
    bodyOf r.kept side = (bodyOf r side).bind Json.notNull? := by
  cases side <;> rfl

/-- Such an expression has the value null before, and none after. -/
theorem evaluate_of_isNullBody {e : Expression} {r : Result} (h : e.IsNullBody r) :
    e.evaluate r = some .null ∧ e.evaluate r.kept = none := by
  obtain ⟨side, rfl, hbody⟩ := h
  constructor
  · rw [evaluate, hbody]
    rfl
  · rw [evaluate, bodyOf_kept, hbody]
    rfl

/-- Nothing is found inside of null, so that only the body as a whole can make a difference. -/
theorem evaluate_kept {e : Expression} {r : Result} (h : ¬e.IsNullBody r) :
    e.evaluate r.kept = e.evaluate r := by
  cases e with
  | url | method | statusCode => rfl
  | parameter side location name => cases side <;> rfl
  | body side pointer =>
    rw [evaluate, evaluate, bodyOf_kept]
    cases hbody : bodyOf r side with
    | none => rfl
    | some v =>
      cases v with
      | null =>
        -- Behind a token there is nothing in null, nor in a missing body.
        cases htokens : Pointer.readTokens? pointer with
        | none => rfl
        | some tokens =>
          cases tokens with
          | nil =>
            have hempty := Pointer.readTokens?_eq_some_nil_iff.mp htokens
            exact absurd ⟨side, by rw [hempty], hbody⟩ h
          | cons token tokens => rfl
      | _ => rfl

end Expression

namespace Formula

/-- The expressions of a formula. -/
def expressions (f : Formula) : List Expression :=
  match f with
  | expression e => [e]
  | template pieces =>
    pieces.filterMap fun p =>
      match p with
      | .text _ => none
      | .expression e => some e
  | literal _ => []

/-- The expressions of a template are those among its pieces. -/
theorem mem_expressions_template {pieces : List Piece} {e : Expression} :
    e ∈ (template pieces).expressions ↔ .expression e ∈ pieces := by
  rw [expressions, List.mem_filterMap]
  constructor
  · rintro ⟨p, hp, heq⟩
    cases p with
    | text => cases heq
    | expression => cases heq; exact hp
  · exact fun h => ⟨_, h, rfl⟩

/-- A formula that does not name a body that is null has the same value in what is read back. -/
theorem evaluate_kept {f : Formula} {r : Result} (h : ∀ e ∈ f.expressions, ¬e.IsNullBody r) :
    f.evaluate r.kept = f.evaluate r := by
  cases f with
  | literal v => rfl
  | expression e => exact Expression.evaluate_kept (h e (List.mem_singleton_self e))
  | template pieces =>
    have htexts : ∀ p ∈ pieces, pieceText? r.kept p = pieceText? r p := by
      intro p hp
      cases p with
      | text s => rfl
      | expression e =>
        have hnot := h e (mem_expressions_template.mpr hp)
        rw [pieceText?, Expression.evaluate_kept hnot, pieceText?]
    suffices hmap : pieces.mapM (pieceText? r.kept) = pieces.mapM (pieceText? r) by
      rw [evaluate, hmap, evaluate]
    clear h
    induction pieces with
    | nil => rfl
    | cons p pieces ih =>
      obtain ⟨hfirst, hrest⟩ := List.forall_mem_cons.mp htexts
      rw [List.mapM_cons, List.mapM_cons, hfirst, ih hrest]

/-- A formula that names a body that is null has no value in what is read back. -/
theorem evaluate_kept_eq_none {f : Formula} {r : Result} {e : Expression} (he : e ∈ f.expressions)
    (h : e.IsNullBody r) : f.evaluate r.kept = none := by
  have hnone := (Expression.evaluate_of_isNullBody h).2
  cases f with
  | literal v => cases he
  | expression e' =>
    cases List.mem_singleton.mp he
    exact hnone
  | template pieces =>
    rw [mem_expressions_template] at he
    suffices hmap : pieces.mapM (pieceText? r.kept) = none by rw [evaluate, hmap, Option.map_none]
    induction pieces with
    | nil => cases he
    | cons p pieces ih =>
      rw [List.mapM_cons]
      rcases List.mem_cons.mp he with rfl | hrest
      · rw [pieceText?, hnone]
        rfl
      · simp [ih hrest]

end Formula

namespace Result

/-- A result is read back from what is written for it, with all inputs, bindings, headers, bodies
and payloads of every kind, unless a body is null, which is read as no body. Formulas have the same
value in what is read back, unless they name a body that is null as a whole, and then they have
none. The same holds for the text of what is written, as far as texts can be read. -/
theorem ofJson?_toJson_eq_kept (r : Result) (hstatus : r.response.status < Response.statusBound) :
    ofJson? r.toJson = some r.kept ∧
      (ofJson? r.toJson = some r ↔ r.request.body ≠ some .null ∧ r.response.body ≠ some .null) ∧
      (∀ f : Formula, (∀ e ∈ f.expressions, ¬e.IsNullBody r) →
        f.evaluate r.kept = f.evaluate r) ∧
      (∀ f : Formula, (∃ e ∈ f.expressions, e.IsNullBody r) → f.evaluate r.kept = none) ∧
      (r.Legible → (Json.parse? r.toJson.text).bind ofJson? = some r.kept) := by
  have hread := ofJson?_toJson hstatus
  refine ⟨hread, ?_, fun f => Formula.evaluate_kept, ?_, fun hlegible => ?_⟩
  · rw [hread, Option.some.injEq, kept_eq_self_iff]
  · rintro f ⟨e, he, hnull⟩
    exact Formula.evaluate_kept_eq_none he hnull
  · rw [parse?_text_toJson hstatus hlegible, Option.bind_some, hread]

/-- The log of a volume that was made in a zone. -/
def volumeLog : Result where
  source :=
    { operation := "createVolume"
      inputs :=
        { parameters := [("name", .string "data"), ("size", .number (.int (2 ^ 64 - 1)))]
          configs := [("zone", .null)] }
      bindings := [⟨"zone", "X-Zone", .header⟩] }
  request :=
    { method := "POST"
      url := "https://api/volumes"
      headers := [("X-Zone", "br-1")]
      body := some (.object [("name", .string "data"), ("tags", .array [.null])]) }
  response := { status := 201 }
  payload := .parts [⟨"log", none, [0, 255]⟩]

theorem legible_volumeLog : volumeLog.Legible where
  parameters := by
    refine .object (by unfold Dict.Sorted; decide) fun e he => ?_
    rcases List.mem_pair.mp he with rfl | rfl
    · exact .string _
    · exact .number ⟨by decide, by decide⟩
  configs := by
    refine .object (List.pairwise_singleton _ _) fun e he => ?_
    cases List.mem_singleton.mp he
    exact .null
  requestHeaders := List.pairwise_singleton _ _
  requestBody := by
    rintro v ⟨⟩
    refine .object (by unfold Dict.Sorted; decide) fun e he => ?_
    rcases List.mem_pair.mp he with rfl | rfl
    · exact .string _
    · refine .array fun item hitem => ?_
      cases List.mem_singleton.mp hitem
      exact .null
  responseHeaders := List.Pairwise.nil
  responseBody := nofun
  payload := nofun

/-- Null is no less than any other value inside of a body or among the inputs, an absent body stays
absent, and the bytes of a part are read back. -/
theorem ofJson?_toJson_eq_kept_volumeLog :
    volumeLog.response.status < Response.statusBound ∧ volumeLog.kept = volumeLog ∧
      ofJson? volumeLog.toJson = some volumeLog ∧ volumeLog.Legible ∧
      (Json.parse? volumeLog.toJson.text).bind ofJson? = some volumeLog ∧
      Formula.evaluate (.expression (.body .request "/tags/0")) volumeLog.kept = some .null := by
  have hstatus : volumeLog.response.status < Response.statusBound := by decide
  have hkept : volumeLog.kept = volumeLog := rfl
  obtain ⟨hread, -, hvalue, -, htext⟩ := ofJson?_toJson_eq_kept volumeLog hstatus
  rw [hkept] at hread htext
  refine ⟨hstatus, hkept, hread, legible_volumeLog, htext legible_volumeLog, ?_⟩
  rw [hvalue]
  · rfl
  · rintro e he ⟨side, heq, -⟩
    rw [List.mem_singleton.mp he, Expression.body.injEq] at heq
    exact absurd heq.2 (by decide)

/-- A volume was deleted, and the answer is null. -/
def volumeDeleted : Result :=
  .ofResponse { operation := "deleteVolume", inputs := {}, bindings := [] }
    { method := "DELETE", url := "https://api/volumes/v1" } { status := 200, body := some .null }

/-- The body of the response is null in the result and missing in what is read back. -/
theorem ofJson?_toJson_ne_volumeDeleted :
    ofJson? volumeDeleted.toJson ≠ some volumeDeleted ∧
      Formula.resolve (.string "$response.body") volumeDeleted = some .null ∧
      ∃ r, ofJson? volumeDeleted.toJson = some r ∧
        Formula.resolve (.string "$response.body") r = none := by
  have hread : ofJson? volumeDeleted.toJson = some volumeDeleted.kept :=
    ofJson?_toJson (by decide)
  refine ⟨fun heq => ?_, by rfl, volumeDeleted.kept, hread, by rfl⟩
  rw [hread, Option.some.injEq, kept_eq_self_iff] at heq
  exact heq.2 rfl

end Result

end ApiCommand
