import ApiCommand.Link.Expression
import ApiCommand.Proofs.Text.Split

/-!
# Reading expressions

An expression for a parameter is read from its text as itself, if the name is not empty and on one
line and the parameter can be named on its side (`parse_text_parameter`).
-/

namespace ApiCommand

namespace Expression

/-- A location, a dot and a name are read as what they are. -/
theorem readParameter?_append (location : Location) (name : List Char) (hname : name ≠ [])
    (hline : '\n' ∉ name) :
    readParameter? ((location.name ++ ".").toList ++ name) =
      some (location, String.ofList name) := by
  have hread : (name.isEmpty || !isOneLine name) = false := by
    simp [isOneLine, hname, hline]
  have hself := Text.after?_append (location.name ++ ".").toList name
  -- The names of the locations differ in their first letters.
  have hother : ∀ other : Location, other ≠ location →
      Text.after? (other.name ++ ".").toList ((location.name ++ ".").toList ++ name) = none := by
    intro other hne
    cases other <;> cases location <;> first | exact absurd rfl hne | rfl
  unfold readParameter?
  cases location <;>
    simp only [List.findSome?_cons, hself, hother, hread, ne_eq, reduceCtorEq, not_false_eq_true,
      Option.bind_none, Option.bind_some, Bool.false_eq_true, if_false]

/-- Behind the name of a side and a dot, a part of this side is read. -/
theorem parse_eq_readPart {text : String} {side : Side} {rest : List Char}
    (h : text.toList = ("$" ++ side.name ++ ".").toList ++ rest) :
    parse text = readPart text side rest := by
  -- The names of both sides begin with the same letter, and no other expression begins with it.
  have hother : ∀ other : String, other.toList[1]? ≠ some 'r' → text ≠ other := by
    rintro other hne rfl
    rw [h] at hne
    cases side <;> simp [Side.name] at hne
  rw [parse, if_neg (hother _ (by decide)), if_neg (hother _ (by decide)),
    if_neg (hother _ (by decide)), h]
  cases side with
  | request => rw [show "$" ++ Side.request.name ++ "." = "$request." from rfl, Text.after?_append]
  | response =>
    have hnone : Text.after? "$request.".toList
        (("$" ++ Side.response.name ++ ".").toList ++ rest) = none := by
      simp [Side.name, Text.after?]
    rw [hnone, show "$" ++ Side.response.name ++ "." = "$response." from rfl, Text.after?_append]

/-- The text of an expression for a parameter is read as this expression. -/
theorem parse_text_parameter {side : Side} {location : Location} {name : String}
    (hside : side = .request ∨ location = .header) (hname : name ≠ "")
    (hline : '\n' ∉ name.toList) :
    parse (text (parameter side location name)) = .ok (parameter side location name) := by
  have htext : (text (parameter side location name)).toList =
      ("$" ++ side.name ++ ".").toList ++ ((location.name ++ ".").toList ++ name.toList) := by
    simp [text]
  have hread := readParameter?_append location name.toList (by simpa using hname) hline
  rw [String.ofList_toList] at hread
  rw [parse_eq_readPart htext]
  simp only [readPart, hread]
  rcases hside with rfl | rfl <;> simp

end Expression

/-- The text of an expression for a parameter has the value of this expression. -/
theorem Formula.resolve_text_parameter {side : Side} {location : Location} {name : String}
    (hside : side = .request ∨ location = .header) (hname : name ≠ "")
    (hline : '\n' ∉ name.toList) (r : Result) :
    resolve (.string (Expression.text (.parameter side location name))) r =
      (Expression.parameter side location name).evaluate r := by
  have hdollar : (Expression.text (.parameter side location name)).toList.head? = some '$' := by
    simp [Expression.text]
  simp only [resolve, parse, ofText, if_pos hdollar,
    Expression.parse_text_parameter hside hname hline, Except.map, evaluate]

end ApiCommand
