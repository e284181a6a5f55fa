import ApiCommand.Json.Basic
import ApiCommand.Json.Reader
import ApiCommand.Text.Split
import ApiCommand.Yaml.Node

/-!
# The values of YAML scalars

A plain scalar stands for null, a truth value, an integer, a floating-point number or, if it is
written like none of these, a text. Scalars in quotes and blocks are texts. A tag overrides this.
-/

namespace ApiCommand.Yaml

/-- A truth value. -/
def bool? (s : String) : Option Bool :=
  if ["true", "True", "TRUE"].contains s then some true
  else if ["false", "False", "FALSE"].contains s then some false
  else none

/-- The text is null. -/
def isNull (s : String) : Bool := ["null", "Null", "NULL", "~"].contains s

/-- The number that digits of a base denote, of which there is at least one. -/
def digitsIn? (base : Nat) (cs : List Char) : Option Nat :=
  if cs.isEmpty then none
  else
    cs.foldlM (fun n c => ((Json.hexDigit? c).filter (· < base)).map fun d => base * n + d) 0

/-- The bases that a numeral may name. -/
def bases : List (List Char × Nat) := [(['0', 'x'], 16), (['0', 'o'], 8), (['0', 'b'], 2)]

/-- A natural number in one of the bases, or in base ten. -/
def natural? (cs : List Char) : Option Nat :=
  (bases.findSome? fun b => (Text.after? b.1 cs).bind (digitsIn? b.2)).or (digitsIn? 10 cs)

/-- The digits of a numeral of base ten start with a zero that is not all of it. Such a numeral is a
text. -/
def isPadded (s : String) : Bool :=
  let (_, cs) := Text.splitSign s.toList
  1 < cs.length && cs.head? == some '0' && cs.all Char.isDigit

/-- An integer of any size. -/
def integer? (s : String) : Option Int :=
  if isPadded s then none
  else
    let (negative, cs) := Text.splitSign s.toList
    (natural? cs).map fun n => if negative then -(n : Int) else n

/-- The integer fits 64 bits, signed or unsigned. -/
def fitsWord (n : Int) : Bool := -Int.pow 2 63 ≤ n && n < Int.pow 2 64

/-- The integer fits 128 bits, signed or unsigned. -/
def fitsDoubleWord (n : Int) : Bool := -Int.pow 2 127 ≤ n && n < Int.pow 2 128

/-- The number is written as an infinity or as no number. -/
def isNotFinite (s : String) : Bool :=
  [".inf", ".Inf", ".INF", "+.inf", "+.Inf", "+.INF", "-.inf", "-.Inf", "-.INF", ".nan", ".NaN",
    ".NAN"].contains s

/-- The value of a floating-point numeral. What is not finite is null. -/
def float? (s : String) : Option Json :=
  if isNotFinite s then some .null
  else (Text.decimal? s.toList).map fun x => .number (.float x)

/-- The value of an integer of any size: one that fits 128 bits but not 64 is an error, and a
greater one is none at all. -/
def integerValue? (s : String) : Option (Option Json) :=
  match integer? s with
  | none => none
  | some n =>
    if fitsWord n then some (some (.int n))
    else if fitsDoubleWord n then some none
    else none

/-- The value of a plain scalar without a tag. -/
def plainValue? (s : String) : Option Json :=
  if s.isEmpty || isNull s then some .null
  else
    match bool? s, integerValue? s with
    | some b, _ => some (.bool b)
    | none, some v => v
    | none, none =>
      if isPadded s then some (.string s) else some ((float? s).getD (.string s))

/-- The value of a scalar. -/
def scalarValue? (tag : Tag) (plain : Bool) (s : String) : Option Json :=
  match tag with
  | .absent => if plain then plainValue? s else some (.string s)
  | .boolean => (bool? s).map Json.bool
  | .integer => (integerValue? s).getD none
  | .float => float? s
  | .null => if isNull s then some .null else none
  | .other => some (.string s)
  | .foreign => none

end ApiCommand.Yaml
