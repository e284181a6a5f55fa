import ApiCommand.Text.Split
import ApiCommand.Unicode.Alphabetic
import ApiCommand.Unicode.CaseMap
import ApiCommand.Unicode.LetterCase
import ApiCommand.Unicode.Numeric
import ApiCommand.Unicode.WhiteSpace

/-!
# Names for the command line

`kebab` turns any text into lower-case words joined by hyphens: words end at characters that are
neither letters nor numbers, and where a capital follows a small letter or number, or starts a word
after other capitals. `flagName` does so between the dots of a name. `shortLabel` takes the opening
of a description as a label.
-/

namespace ApiCommand.Text

/-- The character is a letter or a number. -/
def isAlphanumeric (c : Char) : Bool := Unicode.isAlphabetic c || Unicode.isNumeric c

/-- Kebab case of the rest of a text. `apart` says that a word starts here anyway, since no letter
or number came yet or a hyphen was just written; `small` that the last letter or number was not a
capital. Apostrophes are skipped as if they were not there. -/
def kebabFrom (apart small : Bool) (cs : List Char) : List Char :=
  match cs with
  | [] => []
  | c :: rest =>
    if c = '\'' then kebabFrom apart small rest
    else if isAlphanumeric c then
      let wordStarts :=
        !apart && Unicode.isUppercase c && (small || rest.head?.any Unicode.isLowercase)
      (if wordStarts then ['-'] else []) ++ Unicode.lower c ++
        kebabFrom false (Unicode.isLowercase c || Unicode.isNumeric c) rest
    -- Separators next to each other, or in front of the first word, make one hyphen at most.
    else if apart then kebabFrom apart small rest
    else '-' :: kebabFrom true false rest

/-- Kebab case of a text; no hyphen stands at its end. -/
def kebabChars (cs : List Char) : List Char :=
  ((kebabFrom true false cs).reverse.dropWhile (· == '-')).reverse

/-- Kebab case of a string. -/
def kebab (s : String) : String := String.ofList (kebabChars s.toList)

/-- Kebab case of one segment of a name. A segment without letters and numbers stays as it is. -/
def flagSegment (cs : List Char) : List Char :=
  let image := kebabChars cs
  if image.isEmpty then cs else image

/-- Kebab case between the dots of a name. -/
def flagName (s : String) : String :=
  String.ofList (List.intercalate ['.'] ((s.toList.splitOn '.').map flagSegment))

/-- The character ends the opening of a description. -/
def endsLabel (c : Char) : Bool := c == ',' || c == '.' || c == ':' || c == '('

/-- The opening of a description: what comes before the first comma, full stop, colon or opening
parenthesis, or all of it if there is none or it comes first. -/
def shortLabel (s : String) : String :=
  let opening := s.toList.takeWhile fun c => !endsLabel c
  String.ofList (Unicode.trim (if opening.isEmpty then s.toList else opening))

end ApiCommand.Text
