import ApiCommand.Dict

/-!
# ASCII case

Header names, methods and truth words are compared without regard to the case of ASCII letters, and
of these alone.
-/

namespace ApiCommand.Text

/-- Lower case of the ASCII letters of a text. -/
def asciiLower (s : String) : String := String.ofList (s.toList.map Char.toLower)

/-- Equality up to the case of ASCII letters. -/
def sameAscii (a b : String) : Bool := asciiLower a == asciiLower b

/-- The first value, in key order, whose name is `name` up to ASCII case. -/
def findHeader {α : Type} (headers : Dict α) (name : String) : Option α :=
  (headers.find? fun e => sameAscii e.1 name).map Prod.snd

end ApiCommand.Text
