/-!
# Runs of code points

Unicode properties and case mappings are given as ascending lists of runs: arithmetic progressions
of code points that share the property, or that are mapped by one shift. Alternating upper-case and
lower-case letters make runs of step two.
-/

namespace ApiCommand.Unicode

/-- The code points `first`, `first + step`, up to `last`. -/
structure CodeRun where
  /-- The least code point. -/
  first : Nat
  /-- The greatest code point. -/
  last : Nat
  /-- The distance between neighbours. -/
  step : Nat := 1

namespace CodeRun

/-- The run contains a code point. -/
def contains (r : CodeRun) (code : Nat) : Bool :=
  r.first ≤ code && code ≤ r.last && (code - r.first) % r.step == 0

end CodeRun

/-- One of an ascending list of runs contains a code point. -/
def inRuns (runs : List CodeRun) (code : Nat) : Bool :=
  match runs with
  | [] => false
  | r :: rest => if code < r.first then false else r.contains code || inRuns rest code

/-- A run of code points that are all mapped by the same shift. -/
structure ShiftRun where
  /-- The mapped code points. -/
  run : CodeRun
  /-- What is added to each of them. -/
  shift : Int

/-- The image of a code point under an ascending list of shifts; itself outside of all runs. -/
def shiftBy (runs : List ShiftRun) (code : Nat) : Nat :=
  match runs with
  | [] => code
  | r :: rest =>
    if code < r.run.first then code
    else if r.run.contains code then ((code : Int) + r.shift).toNat
    else shiftBy rest code

end ApiCommand.Unicode
