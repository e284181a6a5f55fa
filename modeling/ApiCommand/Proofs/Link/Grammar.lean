import ApiCommand.Proofs.Link.Expression

/-!
# The grammar of expressions

`Spells e s` lists the texts of the grammar, each with the expression that it stands for. Reading
accepts these texts and no others (`parse_eq_ok_iff`), so a text stands for one expression at most.
An expression has one text, apart from the body as a whole, behind which an empty pointer may stand
(`Spells.eq_or_hash`), and `Expression.text` writes one of its texts (`Spells.spells_text`). The
formulas that texts with a dollar sign in front denote are these expressions (`parse_iff_spells`).
-/

namespace ApiCommand

namespace Expression

/-- The text is one that the grammar has for the expression. -/
inductive Spells : Expression → String → Prop
  | url : Spells url "$url"
  | method : Spells method "$method"
  | statusCode : Spells statusCode "$statusCode"
  /-- A parameter of the request, or a header of the response. -/
  | parameter {side : Side} {location : Location} {name : String}
      (hside : side = .request ∨ location = .header) (hname : name ≠ "")
      (hline : '\n' ∉ name.toList) :
      Spells (parameter side location name)
        ("$" ++ side.name ++ "." ++ location.name ++ "." ++ name)
  | wholeBody (side : Side) : Spells (body side "") ("$" ++ side.name ++ ".body")
  | body (side : Side) {pointer : String} (hline : '\n' ∉ pointer.toList) :
      Spells (body side pointer) ("$" ++ side.name ++ ".body#" ++ pointer)

/-! ## Parts of a side -/

theorem isOneLine_iff {cs : List Char} : isOneLine cs ↔ '\n' ∉ cs := by
  simp [isOneLine]

/-- A parameter is the name of its location, a dot and its own name. -/
theorem readParameter?_eq_some_iff {cs : List Char} {location : Location} {name : String} :
    readParameter? cs = some (location, name) ↔
      cs = (location.name ++ ".").toList ++ name.toList ∧ name ≠ "" ∧ '\n' ∉ name.toList := by
  constructor
  · intro h
    obtain ⟨_, -, h⟩ := List.exists_of_findSome?_eq_some h
    obtain ⟨name', hafter, h⟩ := Option.bind_eq_some_iff.mp h
    rw [Option.ite_none_left_eq_some, Bool.or_eq_true, not_or, Bool.not_eq_true,
      Bool.not_eq_true, Bool.not_eq_false', isOneLine_iff] at h
    obtain ⟨⟨hname, hline⟩, hparts⟩ := h
    cases hparts
    rw [String.toList_ofList]
    exact ⟨Text.after?_eq_some_iff.mp hafter, by simpa using hname, hline⟩
  · rintro ⟨rfl, hname, hline⟩
    rw [readParameter?_append location name.toList (by simpa using hname) hline,
      String.ofList_toList]

/-- A pointer behind a body is empty, or it stands behind a `#`. -/
theorem readPointer?_eq_some_iff {cs : List Char} {pointer : String} :
    readPointer? cs = some pointer ↔
      cs = [] ∧ pointer = "" ∨ cs = '#' :: pointer.toList ∧ '\n' ∉ pointer.toList := by
  unfold readPointer?
  split
  next => simp [@eq_comm _ "" pointer]
  next rest =>
    rw [Option.ite_none_right_eq_some, isOneLine_iff]
    constructor
    · rintro ⟨hline, h⟩
      cases h
      simp [hline]
    · rintro (⟨h, -⟩ | ⟨h, hline⟩)
      · cases h
      · cases h
        simp [hline]
  next hnil hhash =>
    refine iff_of_false nofun ?_
    rintro (⟨rfl, -⟩ | ⟨rfl, -⟩)
    · exact hnil rfl
    · exact hhash _ rfl

/-- No name of a location begins like the word for a body. -/
theorem readParameter?_body (cs : List Char) : readParameter? ("body".toList ++ cs) = none := by
  cases hread : readParameter? ("body".toList ++ cs) with
  | none => rfl
  | some parts =>
    -- Each of the four names differs from the word in one of the first letters.
    obtain ⟨hcs, -⟩ := readParameter?_eq_some_iff.mp hread
    cases hlocation : parts.1 <;> simp [hlocation, Location.name] at hcs

/-- What is read as a part of a side is a parameter that can be named there, or the body. -/
theorem readPart_eq_ok_iff {text : String} {side : Side} {cs : List Char} {e : Expression} :
    readPart text side cs = .ok e ↔
      (∃ location name, readParameter? cs = some (location, name) ∧
        (side = .request ∨ location = .header) ∧ e = parameter side location name) ∨
      ∃ rest pointer, cs = "body".toList ++ rest ∧ readPointer? rest = some pointer ∧
        e = body side pointer := by
  constructor
  · intro h
    -- A parameter is tried first, and the body only if the text is none.
    unfold readPart at h
    split at h
    next location name hread =>
      split at h
      next => cases h
      next hside =>
        cases h
        -- A response has no parameters but headers.
        rw [Decidable.not_and_iff_not_or_not, Decidable.not_not] at hside
        have hrequest : side ≠ .response → side = .request := by
          cases side <;> simp
        exact .inl ⟨location, name, hread, hside.imp_left hrequest, rfl⟩
    next pointer _ hpointer =>
      cases h
      obtain ⟨rest, hafter, hpointer⟩ := Option.bind_eq_some_iff.mp hpointer
      exact .inr ⟨rest, pointer, Text.after?_eq_some_iff.mp hafter, hpointer, rfl⟩
    next => cases h
  · rintro (⟨location, name, hread, hside, rfl⟩ | ⟨rest, pointer, rfl, hpointer, rfl⟩)
    · simp only [readPart, hread]
      rcases hside with rfl | rfl <;> simp
    · simp only [readPart, readParameter?_body, Text.after?_append, Option.bind_some, hpointer]

/-! ## Whole texts -/

/-- A text that is read as an expression is one of the three words, or names a side and is read as
a part of it. -/
theorem eq_word_or_readPart_of_parse {text : String} {e : Expression} (h : parse text = .ok e) :
    (e = url ∧ text = "$url") ∨ (e = method ∧ text = "$method") ∨
      (e = statusCode ∧ text = "$statusCode") ∨
      ∃ (side : Side) (rest : List Char),
        text.toList = ("$" ++ side.name ++ ".").toList ++ rest ∧
          readPart text side rest = .ok e := by
  -- The words are tried first, in this order, and then the two sides.
  unfold parse at h
  split at h
  next heq =>
    cases h
    exact .inl ⟨rfl, heq⟩
  split at h
  next heq =>
    cases h
    exact .inr (.inl ⟨rfl, heq⟩)
  split at h
  next heq =>
    cases h
    exact .inr (.inr (.inl ⟨rfl, heq⟩))
  split at h
  next rest hafter =>
    exact .inr (.inr (.inr ⟨.request, rest, Text.after?_eq_some_iff.mp hafter, h⟩))
  next rest _ hafter =>
    exact .inr (.inr (.inr ⟨.response, rest, Text.after?_eq_some_iff.mp hafter, h⟩))
  next => cases h

/-- The texts that are read as an expression are those that the grammar has for it. -/
theorem parse_eq_ok_iff {text : String} {e : Expression} :
    parse text = .ok e ↔ e.Spells text := by
  constructor
  · intro h
    -- Three texts are words of their own. All others have a side, and a part behind it.
    obtain ⟨rfl, rfl⟩ | ⟨rfl, rfl⟩ | ⟨rfl, rfl⟩ | ⟨side, rest, htext, h⟩ :=
      eq_word_or_readPart_of_parse h
    · exact .url
    · exact .method
    · exact .statusCode
    obtain ⟨location, name, hread, hside, rfl⟩ | ⟨rest, pointer, rfl, hpointer, rfl⟩ :=
      readPart_eq_ok_iff.mp h
    · obtain ⟨rfl, hname, hline⟩ := readParameter?_eq_some_iff.mp hread
      have heq : text = "$" ++ side.name ++ "." ++ location.name ++ "." ++ name :=
        String.toList_injective (by simpa using htext)
      rw [heq]
      exact .parameter hside hname hline
    · obtain ⟨rfl, rfl⟩ | ⟨rfl, hline⟩ := readPointer?_eq_some_iff.mp hpointer
      · have heq : text = "$" ++ side.name ++ ".body" :=
          String.toList_injective (by simpa using htext)
        rw [heq]
        exact .wholeBody side
      · have heq : text = "$" ++ side.name ++ ".body#" ++ pointer :=
          String.toList_injective (by simpa using htext)
        rw [heq]
        exact .body side hline
  · -- Conversely, every text of the grammar is read by the branch that is made for it.
    intro h
    cases h with
    | url => rfl
    | method => rfl
    | statusCode => rfl
    | parameter hside hname hline => exact parse_text_parameter hside hname hline
    | wholeBody side =>
      -- Without a pointer, nothing follows the word for the body.
      have htext : ("$" ++ side.name ++ ".body").toList =
          ("$" ++ side.name ++ ".").toList ++ ("body".toList ++ []) := by simp
      rw [parse_eq_readPart htext, readPart_eq_ok_iff]
      exact .inr ⟨[], "", rfl, rfl, rfl⟩
    | @body side pointer hline =>
      have htext : ("$" ++ side.name ++ ".body#" ++ pointer).toList =
          ("$" ++ side.name ++ ".").toList ++ ("body".toList ++ '#' :: pointer.toList) := by simp
      rw [parse_eq_readPart htext, readPart_eq_ok_iff]
      exact .inr ⟨_, pointer, rfl, readPointer?_eq_some_iff.mpr (.inr ⟨rfl, hline⟩), rfl⟩

namespace Spells

variable {e : Expression} {s t : String}

theorem head?_eq_dollar (h : e.Spells s) : s.toList.head? = some '$' := by
  cases h <;> simp

/-- An expression has one text, or two of which one has an empty pointer behind the body. -/
theorem eq_or_hash (hs : e.Spells s) (ht : e.Spells t) :
    s = t ∨ ∃ side, e = .body side "" ∧ (t = s ++ "#" ∨ s = t ++ "#") := by
  have hhash : ∀ side : Side, "$" ++ side.name ++ ".body#" ++ "" =
      "$" ++ side.name ++ ".body" ++ "#" := by
    rintro (_ | _) <;> rfl
  cases hs with
  | url => cases ht; exact .inl rfl
  | method => cases ht; exact .inl rfl
  | statusCode => cases ht; exact .inl rfl
  | parameter => cases ht; exact .inl rfl
  | wholeBody side =>
    cases ht with
    | wholeBody => exact .inl rfl
    | body => exact .inr ⟨side, rfl, .inl (hhash side)⟩
  | body side hline =>
    cases ht with
    | wholeBody => exact .inr ⟨side, rfl, .inr (hhash side)⟩
    | body => exact .inl rfl

/-- What an expression is written as is one of its texts. -/
theorem spells_text (h : e.Spells s) : e.Spells e.text := by
  cases h with
  | url => exact .url
  | method => exact .method
  | statusCode => exact .statusCode
  | parameter hside hname hline => exact .parameter hside hname hline
  | wholeBody side => exact .body side (by simp)
  | body side hline => exact .body side hline

end Spells

end Expression

namespace Formula

/-- A text with a dollar sign in front is an expression or nothing. -/
theorem parse_eq_of_head?_eq_dollar {s : String} (h : s.toList.head? = some '$') :
    parse (.string s) = (Expression.parse s).map expression := by
  rw [parse, ofText, if_pos h]

/-- Only a text with a dollar sign in front denotes the value of an expression. -/
theorem head?_eq_dollar_of_parse {s : String} {e : Expression}
    (h : parse (.string s) = .ok (.expression e)) : s.toList.head? = some '$' := by
  simp only [parse, ofText] at h
  split at h
  next hdollar => exact hdollar
  split at h
  next =>
    cases hpieces : (stretches s).mapM Stretch.piece <;> simp [hpieces, Except.map] at h
  next => cases h

/-- The expressions among formulas are the texts that the grammar has. -/
theorem parse_eq_ok_expression_iff {s : String} {e : Expression} :
    parse (.string s) = .ok (.expression e) ↔ e.Spells s := by
  have hiff : s.toList.head? = some '$' →
      (parse (.string s) = .ok (.expression e) ↔ Expression.parse s = .ok e) := by
    intro hdollar
    rw [parse_eq_of_head?_eq_dollar hdollar]
    cases Expression.parse s <;> simp [Except.map]
  constructor
  · intro h
    exact Expression.parse_eq_ok_iff.mp ((hiff (head?_eq_dollar_of_parse h)).mp h)
  · intro h
    exact (hiff h.head?_eq_dollar).mpr (Expression.parse_eq_ok_iff.mpr h)

/-- Behind a dollar sign nothing but an expression is read. -/
theorem eq_expression_of_parse {s : String} {f : Formula} (hdollar : s.toList.head? = some '$')
    (h : parse (.string s) = .ok f) : ∃ e, f = .expression e := by
  rw [parse_eq_of_head?_eq_dollar hdollar] at h
  cases hread : Expression.parse s with
  | error fault => simp [hread, Except.map] at h
  | ok e =>
    rw [hread] at h
    cases h
    exact ⟨e, rfl⟩

/-- A text with a dollar sign in front is read exactly if the grammar has it, and as the expression
that it spells there. Two texts for one expression are the same up to an empty pointer, and what the
expression is written as is read as the expression again. -/
theorem parse_iff_spells {s : String} (hdollar : s.toList.head? = some '$') :
    ((∃ f, parse (.string s) = .ok f) ↔ ∃ e : Expression, e.Spells s) ∧
      (∀ f, parse (.string s) = .ok f ↔ ∃ e : Expression, f = .expression e ∧ e.Spells s) ∧
      (∀ t e, parse (.string s) = .ok (.expression e) → parse (.string t) = .ok (.expression e) →
        s = t ∨ ∃ side, e = .body side "" ∧ (t = s ++ "#" ∨ s = t ++ "#")) ∧
      ∀ e, parse (.string s) = .ok (.expression e) →
        parse (.string e.text) = .ok (.expression e) := by
  -- Behind a dollar sign there is an expression or nothing at all.
  have hvalue : ∀ f, parse (.string s) = .ok f ↔
      ∃ e : Expression, f = .expression e ∧ e.Spells s := by
    intro f
    constructor
    · intro h
      obtain ⟨e, rfl⟩ := eq_expression_of_parse hdollar h
      exact ⟨e, rfl, parse_eq_ok_expression_iff.mp h⟩
    · rintro ⟨e, rfl, h⟩
      exact parse_eq_ok_expression_iff.mpr h
  refine ⟨⟨?_, ?_⟩, hvalue, ?_, ?_⟩
  · rintro ⟨f, h⟩
    obtain ⟨e, -, hspells⟩ := (hvalue f).mp h
    exact ⟨e, hspells⟩
  · rintro ⟨e, hspells⟩
    exact ⟨.expression e, (hvalue _).mpr ⟨e, rfl, hspells⟩⟩
  · intro t e hs ht
    exact (parse_eq_ok_expression_iff.mp hs).eq_or_hash (parse_eq_ok_expression_iff.mp ht)
  · intro e h
    exact parse_eq_ok_expression_iff.mpr (parse_eq_ok_expression_iff.mp h).spells_text

/-- A name may have the separators of the grammar in it. -/
theorem parse_iff_spells_request_query :
    "$request.query.body#a.b".toList.head? = some '$' ∧
      parse (.string "$request.query.body#a.b") =
        .ok (.expression (.parameter .request .query "body#a.b")) :=
  have hdollar : "$request.query.body#a.b".toList.head? = some '$' := by decide
  have hspells : (Expression.parameter .request .query "body#a.b").Spells
      "$request.query.body#a.b" := .parameter (.inl rfl) (by decide) (by decide)
  ⟨hdollar, ((parse_iff_spells hdollar).2.1 _).mpr ⟨_, rfl, hspells⟩⟩

end Formula

end ApiCommand
