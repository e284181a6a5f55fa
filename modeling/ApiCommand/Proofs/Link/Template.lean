import ApiCommand.Proofs.Link.Grammar
import Mathlib.Data.List.Forall2
import Mathlib.Data.List.TakeWhile

/-!
# Templates

A factor is a text in braces that begins with a dollar sign and goes on without braces. No two
factors of a text overlap (`hasFactor_append_braced_iff`), so cutting a text at its leftmost factor
again and again (`Splits`) finds all of them and leaves nothing else out. A text that does not begin
with a dollar sign is read by this cut: without factors as itself, otherwise as a template that has
a piece for each stretch, provided that the grammar has the inside of every factor
(`parse_of_factors`).
-/

namespace ApiCommand.Formula

/-! ## Factors -/

/-- The text can stand between the braces of a factor: behind a dollar sign there is at least one
character, and none of them is a brace. -/
def IsInside (inside : List Char) : Prop :=
  ∃ c cs, inside = '$' :: c :: cs ∧ ∀ d ∈ c :: cs, isPlain d

/-- The text in braces. -/
def braced (inside : List Char) : List Char := '{' :: (inside ++ ['}'])

/-- There is a factor with this inside somewhere in the text. -/
def HasFactor (cs inside : List Char) : Prop := IsInside inside ∧ braced inside <:+: cs

/-- There is no factor in the text. -/
def FactorFree (cs : List Char) : Prop := ∀ inside, ¬HasFactor cs inside

theorem braced_append (inside rest : List Char) :
    braced inside ++ rest = '{' :: (inside ++ '}' :: rest) := by
  simp [braced]

theorem isPlain_iff {c : Char} : isPlain c ↔ c ≠ '{' ∧ c ≠ '}' := by
  simp [isPlain]

/-- There are plain characters only inside of a factor. -/
theorem IsInside.isPlain {inside : List Char} (h : IsInside inside) {c : Char} (hc : c ∈ inside) :
    isPlain c := by
  obtain ⟨d, ds, rfl, hplain⟩ := h
  rcases List.mem_cons.mp hc with rfl | hmem
  · decide
  · exact hplain c hmem

theorem IsInside.open_notMem {inside : List Char} (h : IsInside inside) : '{' ∉ inside :=
  fun hmem => (isPlain_iff.mp (h.isPlain hmem)).1 rfl

theorem IsInside.close_notMem {inside : List Char} (h : IsInside inside) : '}' ∉ inside :=
  fun hmem => (isPlain_iff.mp (h.isPlain hmem)).2 rfl

/-- A text has a factor if an inside stands somewhere in braces. -/
theorem hasFactor_iff {cs inside : List Char} :
    HasFactor cs inside ↔
      IsInside inside ∧ ∃ before after, cs = before ++ '{' :: (inside ++ '}' :: after) := by
  unfold HasFactor List.IsInfix
  simp only [List.append_assoc, braced_append, @eq_comm _ cs]

/-- What is read at the start of a text is a factor that stands there. -/
theorem factor?_eq_some_iff {cs inside after : List Char} :
    factor? cs = some (inside, after) ↔ IsInside inside ∧ cs = braced inside ++ after := by
  rw [braced_append]
  constructor
  · intro h
    unfold factor? at h
    split at h
    next rest =>
      split at h
      next c ds after' htake hdrop =>
        cases h
        have hrest : rest = c :: ds ++ '}' :: after := by
          rw [← htake, ← hdrop, List.takeWhile_append_dropWhile]
        refine ⟨⟨c, ds, rfl, fun d hd => ?_⟩, by rw [hrest]; rfl⟩
        exact List.mem_takeWhile_imp (htake ▸ hd)
      next => cases h
    next => cases h
  · rintro ⟨⟨c, ds, rfl, hplain⟩, rfl⟩
    -- The characters without braces end at the closing brace.
    have hclose : isPlain '}' = false := by decide
    have htake : (c :: ds ++ '}' :: after).takeWhile isPlain = c :: ds := by
      rw [List.takeWhile_append_of_pos hplain, List.takeWhile_cons_of_neg (by simp [hclose]),
        List.append_nil]
    have hdrop : (c :: ds ++ '}' :: after).dropWhile isPlain = '}' :: after := by
      rw [List.dropWhile_append_of_pos hplain, List.dropWhile_cons_of_neg (by simp [hclose])]
    rw [List.cons_append] at htake hdrop
    simp only [List.cons_append, factor?, htake, hdrop]

/-- Factors do not overlap: one that stands somewhere in a text is another one or on one side of
it. -/
theorem hasFactor_append_braced_iff {before inside after other : List Char}
    (hinside : IsInside inside) :
    HasFactor (before ++ braced inside ++ after) other ↔
      HasFactor before other ∨ other = inside ∨ HasFactor after other := by
  constructor
  · intro h
    obtain ⟨hother, start, rest, heq⟩ := hasFactor_iff.mp h
    rw [List.append_assoc, braced_append] at heq
    -- The brace that opens the other factor is that of the factor, or in front of it, or behind it.
    obtain rfl | ⟨between, rfl, hrest⟩ | ⟨between, rfl, hrest⟩ :=
      Text.eq_or_append_of_append_cons_eq heq
    · have htail : inside ++ '}' :: after = other ++ '}' :: rest := by simpa using heq
      have hcut := Text.cut_append hother.close_notMem rest
      rw [← htail, Text.cut_append hinside.close_notMem] at hcut
      cases hcut
      exact .inr (.inl rfl)
    · -- The other factor is behind this one, for there is no opening brace inside of this one.
      obtain rfl | ⟨more, rfl, hafter⟩ | ⟨more, rfl, -⟩ :=
        Text.eq_or_append_of_append_cons_eq hrest
      · simp at hrest
      · exact .inr (.inr (hasFactor_iff.mpr ⟨hother, more, rest, hafter⟩))
      · exact absurd (by simp) hinside.open_notMem
    · -- The other factor is in front, for there is no opening brace inside of it either.
      obtain rfl | ⟨more, rfl, -⟩ | ⟨more, rfl, -⟩ :=
        Text.eq_or_append_of_append_cons_eq hrest
      · simp at hrest
      · exact .inl (hasFactor_iff.mpr ⟨hother, start, more, rfl⟩)
      · exact absurd (by simp) hother.open_notMem
  · rintro (⟨hother, hinfix⟩ | rfl | ⟨hother, hinfix⟩)
    · rw [List.append_assoc]
      exact ⟨hother, hinfix.trans (List.prefix_append _ _).isInfix⟩
    · exact ⟨hinside, List.infix_append _ _ _⟩
    · exact ⟨hother, hinfix.trans (List.suffix_append _ _).isInfix⟩

/-! ## Cutting a text -/

/-- The characters of a stretch. -/
def Stretch.chars (stretch : Stretch) : List Char :=
  match stretch with
  | .factor inside => braced inside
  | .plain cs => cs

/-- A text as a stretch of its own, unless it is empty. -/
def plainStretch (cs : List Char) : List Stretch := if cs = [] then [] else [.plain cs]

/-- The stretches are what a text is cut into at its successive leftmost factors. -/
inductive Splits : List Char → List Stretch → Prop
  /-- The text is one stretch, or empty. -/
  | free {cs : List Char} (hfree : FactorFree cs) : Splits cs (plainStretch cs)
  /-- No factor of the text begins further left than the one that the text is cut at, and what
  follows it is cut in turn. -/
  | factor {before inside after : List Char} {found : List Stretch} (hinside : IsInside inside)
      (hleftmost : ∀ start other rest, IsInside other →
        before ++ braced inside ++ after = start ++ braced other ++ rest →
          before.length ≤ start.length)
      (hafter : Splits after found) :
      Splits (before ++ braced inside ++ after) (plainStretch before ++ .factor inside :: found)

theorem plainStretch_of_ne_nil {cs : List Char} (h : cs ≠ []) : plainStretch cs = [.plain cs] :=
  if_neg h

theorem factorFree_nil : FactorFree [] := by
  rintro inside ⟨-, hinfix⟩
  simp [braced] at hinfix

/-- A text with no factor at its start and none in its rest has none at all. -/
theorem factorFree_cons {c : Char} {cs : List Char} (hstart : factor? (c :: cs) = none)
    (h : FactorFree cs) : FactorFree (c :: cs) := by
  rintro inside ⟨hinside, hinfix⟩
  obtain ⟨after, hafter⟩ | hrest := List.infix_cons_iff.mp hinfix
  · rw [factor?_eq_some_iff.mpr ⟨hinside, hafter.symm⟩] at hstart
    cases hstart
  · exact h inside ⟨hinside, hrest⟩

/-- A character in front of a plain stretch makes it longer. -/
theorem consPlain_plainStretch (c : Char) (cs : List Char) :
    consPlain c (plainStretch cs) = [.plain (c :: cs)] := by
  unfold plainStretch
  split
  next h => rw [h, consPlain]; nofun
  next => rfl

/-- It does so too when factors follow. -/
theorem consPlain_plainStretch_append (c : Char) (cs inside : List Char) (found : List Stretch) :
    consPlain c (plainStretch cs ++ .factor inside :: found) =
      plainStretch (c :: cs) ++ .factor inside :: found := by
  unfold plainStretch
  cases cs <;> rfl

/-- A character in front of which no factor begins belongs to the text before the first factor. -/
theorem Splits.cons {c : Char} {cs : List Char} {found : List Stretch} (h : Splits cs found)
    (hstart : factor? (c :: cs) = none) : Splits (c :: cs) (consPlain c found) := by
  cases h with
  | free hfree =>
    rw [consPlain_plainStretch, ← plainStretch_of_ne_nil (List.cons_ne_nil c cs)]
    exact .free (factorFree_cons hstart hfree)
  | @factor before inside after found hinside hleftmost hafter =>
    rw [consPlain_plainStretch_append]
    refine @Splits.factor (c :: before) inside after found hinside ?_ hafter
    intro start other rest hother heq
    cases start with
    | nil =>
      have hsome := factor?_eq_some_iff.mpr ⟨hother, heq⟩
      rw [List.cons_append, List.cons_append, hstart] at hsome
      cases hsome
    | cons d start =>
      have htail := (List.cons.inj heq).2
      exact Nat.succ_le_succ (hleftmost start other rest hother htail)

/-- The characters of a factor that was found are passed over. -/
theorem cutFrom_length_append (cs rest : List Char) :
    cutFrom cs.length (cs ++ rest) = cutFrom 0 rest := by
  induction cs with
  | nil => rfl
  | cons c cs ih => rw [List.length_cons, List.cons_append, cutFrom, ih]

/-- A factor in front of a text is cut off. -/
theorem cutFrom_braced_append {inside : List Char} (hinside : IsInside inside) (after : List Char) :
    cutFrom 0 (braced inside ++ after) = .factor inside :: cutFrom 0 after := by
  have hfactor := factor?_eq_some_iff.mpr ⟨hinside, rfl (a := braced inside ++ after)⟩
  have hskip := cutFrom_length_append (inside ++ ['}']) after
  rw [braced, List.cons_append] at hfactor ⊢
  rw [cutFrom, hfactor]
  rw [List.length_append, List.length_singleton] at hskip
  exact congrArg _ hskip

/-- The stretches of a text are those that it is cut into at its leftmost factors. -/
theorem splits_cutFrom (cs : List Char) : Splits cs (cutFrom 0 cs) := by
  -- A factor that is found takes several characters at once.
  induction hlength : cs.length using Nat.strong_induction_on generalizing cs with
  | _ n ih =>
    cases cs with
    | nil => exact .free factorFree_nil
    | cons c cs =>
      cases hstart : factor? (c :: cs) with
      | none =>
        have hrest := ih cs.length (by simp [← hlength]) cs rfl
        rw [cutFrom, hstart]
        exact hrest.cons hstart
      | some parts =>
        obtain ⟨inside, after⟩ := parts
        obtain ⟨hinside, heq⟩ := factor?_eq_some_iff.mp hstart
        have hafter := ih after.length (by
          rw [← hlength, heq, braced_append]
          simp only [List.length_cons, List.length_append]
          omega) after rfl
        rw [heq, cutFrom_braced_append hinside]
        exact @Splits.factor [] inside after _ hinside (fun _ _ _ _ _ => Nat.zero_le _) hafter

namespace Splits

variable {cs : List Char} {found : List Stretch}

/-- A plain stretch has all characters of its text. -/
theorem flatMap_chars_plainStretch (cs : List Char) :
    (plainStretch cs).flatMap Stretch.chars = cs := by
  unfold plainStretch
  split
  next h => rw [h, List.flatMap_nil]
  next => simp [Stretch.chars]

/-- The stretches make the text. -/
theorem flatMap_chars (h : Splits cs found) : found.flatMap Stretch.chars = cs := by
  induction h with
  | free => exact flatMap_chars_plainStretch _
  | factor _ _ _ ih =>
    rw [List.flatMap_append, List.flatMap_cons, flatMap_chars_plainStretch, ih,
      ← List.append_assoc]
    rfl

/-- In front of the leftmost factor there is none. -/
theorem factorFree_of_leftmost {before inside after : List Char}
    (hleftmost : ∀ start other rest, IsInside other →
      before ++ braced inside ++ after = start ++ braced other ++ rest →
        before.length ≤ start.length) : FactorFree before := by
  rintro other ⟨hother, start, rest, rfl⟩
  have hle := hleftmost start other (rest ++ braced inside ++ after) hother (by simp)
  rw [braced, List.length_append, List.length_append, List.length_cons] at hle
  omega

/-- A text is its own plain stretch, unless it is empty. -/
theorem mem_plainStretch_iff {cs : List Char} {stretch : Stretch} :
    stretch ∈ plainStretch cs ↔ stretch = .plain cs ∧ cs ≠ [] := by
  unfold plainStretch
  split
  next h => simp [h]
  next h => simp [h]

/-- What is between the factors is not empty and holds none. -/
theorem plain_of_mem (h : Splits cs found) {ds : List Char} (hmem : .plain ds ∈ found) :
    ds ≠ [] ∧ FactorFree ds := by
  induction h with
  | free hfree =>
    obtain ⟨heq, hne⟩ := mem_plainStretch_iff.mp hmem
    cases heq
    exact ⟨hne, hfree⟩
  | factor _ hleftmost _ ih =>
    rcases List.mem_append.mp hmem with hbefore | hrest
    · obtain ⟨heq, hne⟩ := mem_plainStretch_iff.mp hbefore
      cases heq
      exact ⟨hne, factorFree_of_leftmost hleftmost⟩
    · exact ih ((List.mem_cons.mp hrest).resolve_left nofun)

/-- The factors among the stretches are all the factors in the text. -/
theorem factor_mem_iff (h : Splits cs found) {inside : List Char} :
    .factor inside ∈ found ↔ HasFactor cs inside := by
  induction h with
  | free hfree => simp [mem_plainStretch_iff, hfree inside]
  | factor hinside hleftmost _ ih =>
    rw [hasFactor_append_braced_iff hinside, ← ih]
    simp [mem_plainStretch_iff, factorFree_of_leftmost hleftmost inside]

end Splits

/-! ## Pieces -/

/-- The piece is the one of a template for the stretch. -/
inductive StandsFor : Piece → Stretch → Prop
  | text (cs : List Char) : StandsFor (.text (String.ofList cs)) (.plain cs)
  | expression {e : Expression} {inside : List Char} (hspells : e.Spells (String.ofList inside)) :
      StandsFor (.expression e) (.factor inside)

/-- A piece is made of a stretch if it stands for it. -/
theorem piece_eq_ok_iff {stretch : Stretch} {piece : Piece} :
    stretch.piece = .ok piece ↔ StandsFor piece stretch := by
  cases stretch with
  | plain cs =>
    constructor
    · rintro h
      cases h
      exact .text cs
    · rintro ⟨⟩
      rfl
  | factor inside =>
    rw [Stretch.piece]
    constructor
    · intro h
      cases hread : Expression.parse (String.ofList inside) with
      | error fault => simp [hread, Except.map] at h
      | ok e =>
        rw [hread] at h
        cases h
        exact .expression (Expression.parse_eq_ok_iff.mp hread)
    · rintro (_ | hspells)
      rw [Expression.parse_eq_ok_iff.mpr hspells]
      rfl

/-- Each piece is the one for its stretch. -/
theorem mapM_piece_eq_ok_iff {found : List Stretch} {pieces : List Piece} :
    found.mapM Stretch.piece = .ok pieces ↔ List.Forall₂ StandsFor pieces found := by
  induction found generalizing pieces with
  | nil =>
    rw [List.mapM_nil, List.forall₂_nil_right_iff]
    exact ⟨fun h => (Except.ok.inj h).symm, fun h => by rw [h]; rfl⟩
  | cons stretch found ih =>
    rw [List.mapM_cons, List.forall₂_cons_right_iff]
    constructor
    · intro h
      cases hpiece : stretch.piece with
      | error fault => simp [hpiece, bind, Except.bind] at h
      | ok piece =>
        cases hrest : found.mapM Stretch.piece with
        | error fault => simp [hpiece, hrest, bind, Except.bind] at h
        | ok rest =>
          rw [hpiece, hrest] at h
          cases h
          exact ⟨piece, rest, piece_eq_ok_iff.mp hpiece, ih.mp hrest, rfl⟩
    · rintro ⟨piece, rest, hpiece, hrest, rfl⟩
      rw [piece_eq_ok_iff.mpr hpiece, ih.mpr hrest]
      rfl

/-- Only a factor can be without a piece. -/
theorem exists_standsFor_iff {stretch : Stretch} :
    (∃ piece, StandsFor piece stretch) ↔
      ∀ inside, stretch = .factor inside → ∃ e : Expression, e.Spells (String.ofList inside) := by
  cases stretch with
  | plain cs => exact iff_of_true ⟨_, .text cs⟩ nofun
  | factor inside =>
    constructor
    · rintro ⟨_, ⟨⟩ | hspells⟩ _ ⟨⟩
      exact ⟨_, hspells⟩
    · intro h
      obtain ⟨e, hspells⟩ := h inside rfl
      exact ⟨_, .expression hspells⟩

/-- There are pieces for all stretches exactly if the grammar has the inside of each factor. -/
theorem exists_forall₂_standsFor_iff {found : List Stretch} :
    (∃ pieces, List.Forall₂ StandsFor pieces found) ↔
      ∀ inside, .factor inside ∈ found → ∃ e : Expression, e.Spells (String.ofList inside) := by
  induction found with
  | nil => exact iff_of_true ⟨[], .nil⟩ nofun
  | cons stretch found ih =>
    have hcons : (∃ pieces, List.Forall₂ StandsFor pieces (stretch :: found)) ↔
        (∃ piece, StandsFor piece stretch) ∧ ∃ pieces, List.Forall₂ StandsFor pieces found := by
      constructor
      · rintro ⟨_, _ | ⟨hpiece, hrest⟩⟩
        exact ⟨⟨_, hpiece⟩, _, hrest⟩
      · rintro ⟨⟨_, hpiece⟩, _, hrest⟩
        exact ⟨_, .cons hpiece hrest⟩
    rw [hcons, ih, exists_standsFor_iff]
    simp only [List.mem_cons, or_imp, forall_and, @eq_comm _ stretch]

/-! ## Values -/

/-- What is put in place of the stretch: a factor is replaced by the text of its value. -/
def Stretch.filled (value : List Char → Json) (stretch : Stretch) : List Char :=
  match stretch with
  | .factor inside => (value inside).plainText.toList
  | .plain cs => cs

/-- The text of an expression is resolved to what the expression has. -/
theorem resolve_of_spells {e : Expression} {s : String} (h : e.Spells s) (r : Result) :
    resolve (.string s) r = e.evaluate r := by
  rw [resolve, parse_eq_ok_expression_iff.mpr h]
  rfl

section Values

variable {pieces : List Piece} {found : List Stretch} (h : List.Forall₂ StandsFor pieces found)
  (r : Result)

include h

/-- If every factor has a value, then the template has the text with the values put in. -/
theorem evaluate_template {value : List Char → Json}
    (hvalue : ∀ inside, .factor inside ∈ found →
      resolve (.string (String.ofList inside)) r = some (value inside)) :
    (template pieces).evaluate r =
      some (.string (String.ofList (found.flatMap (Stretch.filled value)))) := by
  -- The texts of the pieces are joined, which is the text with all factors filled in.
  suffices htexts : ∃ texts, pieces.mapM (pieceText? r) = some texts ∧
      String.join texts = String.ofList (found.flatMap (Stretch.filled value)) by
    obtain ⟨texts, hmap, hjoin⟩ := htexts
    rw [evaluate, hmap, Option.map_some, hjoin]
  induction h with
  | nil => exact ⟨[], rfl, rfl⟩
  | @cons piece stretch pieces found hpiece _ ih =>
    obtain ⟨texts, hmap, hjoin⟩ := ih fun inside hmem => hvalue inside (List.mem_cons_of_mem _ hmem)
    have hfirst : pieceText? r piece = some (String.ofList (stretch.filled value)) := by
      cases hpiece with
      | text cs => rfl
      | expression hspells =>
        -- The value of the expression is that of the inside of its factor.
        have hresolve := hvalue _ List.mem_cons_self
        rw [resolve_of_spells hspells] at hresolve
        rw [pieceText?, hresolve, Option.map_some, Stretch.filled, String.ofList_toList]
    refine ⟨String.ofList (stretch.filled value) :: texts, by simp [hfirst, hmap], ?_⟩
    rw [List.flatMap_cons, String.ofList_append, ← hjoin, String.join_cons]

/-- A factor without a value leaves the template without one. -/
theorem evaluate_template_eq_none {inside : List Char} (hmem : .factor inside ∈ found)
    (hnone : resolve (.string (String.ofList inside)) r = none) :
    (template pieces).evaluate r = none := by
  suffices hmap : pieces.mapM (pieceText? r) = none by rw [evaluate, hmap, Option.map_none]
  induction h with
  | nil => cases hmem
  | cons hpiece _ ih =>
    rw [List.mapM_cons]
    rcases List.mem_cons.mp hmem with rfl | hrest
    · cases hpiece with
      | expression hspells =>
        rw [resolve_of_spells hspells] at hnone
        rw [pieceText?, hnone]
        rfl
    · simp [ih hrest]

end Values

/-! ## Reading -/

/-- What it means for a template to be that of a text. -/
structure IsTemplateOf (pieces : List Piece) (found : List Stretch) (s : String) : Prop where
  /-- The text is cut at its successive leftmost factors. -/
  splits : Splits s.toList found
  /-- Put together again, the stretches are the text. -/
  flatMap_chars : found.flatMap Stretch.chars = s.toList
  /-- What is between the factors is not empty and holds none. -/
  plain : ∀ cs, .plain cs ∈ found → cs ≠ [] ∧ FactorFree cs
  /-- There is one piece for each stretch, in this order. -/
  standsFor : List.Forall₂ StandsFor pieces found
  /-- If every factor has a value, then the template has the text with the values in their place. -/
  value : ∀ r value, (∀ inside, HasFactor s.toList inside →
      resolve (.string (String.ofList inside)) r = some (value inside)) →
    (template pieces).evaluate r =
      some (.string (String.ofList (found.flatMap (Stretch.filled value))))
  /-- It has no value exactly if some factor has none. -/
  value_eq_none_iff : ∀ r, (template pieces).evaluate r = none ↔
    ∃ inside, HasFactor s.toList inside ∧ resolve (.string (String.ofList inside)) r = none

/-- Pieces that stand for the stretches of a text make its template. -/
theorem isTemplateOf_of_splits {pieces : List Piece} {found : List Stretch} {s : String}
    (hsplits : Splits s.toList found) (hpieces : List.Forall₂ StandsFor pieces found) :
    IsTemplateOf pieces found s where
  splits := hsplits
  flatMap_chars := hsplits.flatMap_chars
  plain := fun _ => hsplits.plain_of_mem
  standsFor := hpieces
  value := fun r value hvalue =>
    evaluate_template hpieces r fun inside hmem => hvalue inside (hsplits.factor_mem_iff.mp hmem)
  value_eq_none_iff := by
    intro r
    constructor
    · intro hnone
      by_contra hall
      -- Otherwise every factor has a value, and the template has one, too.
      have hvalue : ∀ inside, .factor inside ∈ found →
          resolve (.string (String.ofList inside)) r =
            some ((resolve (.string (String.ofList inside)) r).getD .null) := by
        intro inside hmem
        cases hresolve : resolve (.string (String.ofList inside)) r with
        | none => exact absurd ⟨inside, hsplits.factor_mem_iff.mp hmem, hresolve⟩ hall
        | some v => rfl
      rw [evaluate_template hpieces r hvalue] at hnone
      cases hnone
    · rintro ⟨inside, hfactor, hnone⟩
      exact evaluate_template_eq_none hpieces r (hsplits.factor_mem_iff.mpr hfactor) hnone

/-- There is a factor among the stretches if there is one in the text. -/
theorem any_isFactor_iff {cs : List Char} {found : List Stretch} (h : Splits cs found) :
    found.any Stretch.isFactor ↔ ∃ inside, HasFactor cs inside := by
  simp only [← h.factor_mem_iff, List.any_eq_true]
  constructor
  · rintro ⟨_ | inside, hmem, hfactor⟩
    · exact ⟨_, hmem⟩
    · cases hfactor
  · rintro ⟨inside, hmem⟩
    exact ⟨_, hmem, rfl⟩

/-- A text that does not begin with a dollar sign stands for itself if there is no factor in it.
Otherwise it is read exactly if the grammar has the inside of each of its factors, and then as the
template of the text. -/
theorem parse_of_factors {s : String} (hdollar : s.toList.head? ≠ some '$') :
    (FactorFree s.toList → parse (.string s) = .ok (.literal (.string s)) ∧
      ∀ r, (literal (.string s)).evaluate r = some (.string s)) ∧
    ((∃ inside, HasFactor s.toList inside) →
      ((∃ fault, parse (.string s) = .error fault) ↔
        ∃ inside, HasFactor s.toList inside ∧
          ¬∃ e : Expression, e.Spells (String.ofList inside)) ∧
      ∀ f, parse (.string s) = .ok f →
        ∃ pieces found, f = .template pieces ∧ IsTemplateOf pieces found s) := by
  -- The text is cut into stretches once. Whether it is a template depends on them.
  have hsplits : Splits s.toList (stretches s) := splits_cutFrom s.toList
  have hany := any_isFactor_iff hsplits
  refine ⟨fun hfree => ⟨?_, fun _ => rfl⟩, fun hfactor => ?_⟩
  · have hnone : ¬(stretches s).any Stretch.isFactor := by
      rw [hany]
      exact fun ⟨inside, h⟩ => hfree inside h
    simp only [parse, ofText, if_neg hdollar, if_neg hnone]
  · have hread : parse (.string s) = ((stretches s).mapM Stretch.piece).map template := by
      simp only [parse, ofText, if_neg hdollar, if_pos (hany.mpr hfactor)]
    have hpieces := @exists_forall₂_standsFor_iff (stretches s)
    simp only [hsplits.factor_mem_iff, ← mapM_piece_eq_ok_iff] at hpieces
    rw [hread]
    refine ⟨?_, fun f h => ?_⟩
    · -- The template cannot be made exactly if the inside of some factor is no expression.
      have hbad : (∃ inside, HasFactor s.toList inside ∧
          ¬∃ e : Expression, e.Spells (String.ofList inside)) ↔
          ¬∃ pieces, (stretches s).mapM Stretch.piece = .ok pieces := by
        rw [hpieces]
        simp only [not_forall, exists_prop]
      rw [hbad]
      cases (stretches s).mapM Stretch.piece <;> simp [Except.map]
    · cases hmap : (stretches s).mapM Stretch.piece with
      | error fault => simp [hmap, Except.map] at h
      | ok pieces =>
        rw [hmap] at h
        cases h
        exact ⟨pieces, _, rfl, isTemplateOf_of_splits hsplits (mapM_piece_eq_ok_iff.mp hmap)⟩

/-- A text with two factors is read as a template of four pieces. -/
theorem parse_of_factors_name :
    ∃ pieces found, "vol-{$response.body#/id}-{$statusCode}".toList.head? ≠ some '$' ∧
      HasFactor "vol-{$response.body#/id}-{$statusCode}".toList "$statusCode".toList ∧
      pieces = [.text "vol-", .expression (.body .response "/id"), .text "-",
        .expression .statusCode] ∧
      parse (.string "vol-{$response.body#/id}-{$statusCode}") = .ok (.template pieces) ∧
      IsTemplateOf pieces found "vol-{$response.body#/id}-{$statusCode}" := by
  have hdollar : "vol-{$response.body#/id}-{$statusCode}".toList.head? ≠ some '$' := by decide
  have hfactor : HasFactor "vol-{$response.body#/id}-{$statusCode}".toList
      "$statusCode".toList :=
    ⟨⟨'s', "tatusCode".toList, by decide, by simp [isPlain]⟩,
      ⟨"vol-{$response.body#/id}-".toList, [], by decide⟩⟩
  have hread : parse (.string "vol-{$response.body#/id}-{$statusCode}") =
      .ok (.template [.text "vol-", .expression (.body .response "/id"), .text "-",
        .expression .statusCode]) := by rfl
  obtain ⟨pieces, found, heq, htemplate⟩ :=
    ((parse_of_factors hdollar).2 ⟨_, hfactor⟩).2 _ hread
  cases heq
  exact ⟨_, found, hdollar, hfactor, rfl, hread, htemplate⟩

end ApiCommand.Formula
