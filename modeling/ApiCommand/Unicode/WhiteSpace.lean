import ApiCommand.Unicode.CodeRun

/-!
# White space

The Unicode property `White_Space`, and the removal of white space at the ends of a text.
-/

namespace ApiCommand.Unicode

/-- The runs of the property `White_Space`. -/
def whiteSpaceRuns : List CodeRun :=
  [
    ⟨0x9, 0xD, 1⟩, ⟨0x20, 0x20, 1⟩, ⟨0x85, 0x85, 1⟩, ⟨0xA0, 0xA0, 1⟩, ⟨0x1680, 0x1680, 1⟩,
    ⟨0x2000, 0x200A, 1⟩, ⟨0x2028, 0x2029, 1⟩, ⟨0x202F, 0x202F, 1⟩, ⟨0x205F, 0x205F, 1⟩,
    ⟨0x3000, 0x3000, 1⟩]

/-- The character is white space. -/
def isWhiteSpace (c : Char) : Bool := inRuns whiteSpaceRuns c.toNat

/-- Drops white space at the start. -/
def trimStart (cs : List Char) : List Char := cs.dropWhile isWhiteSpace

/-- Drops white space at the end. -/
def trimEnd (cs : List Char) : List Char := (cs.reverse.dropWhile isWhiteSpace).reverse

/-- Drops white space at both ends. -/
def trim (cs : List Char) : List Char := trimEnd (trimStart cs)

/-- Drops white space at both ends of a string. -/
def trimText (s : String) : String := String.ofList (trim s.toList)

end ApiCommand.Unicode
