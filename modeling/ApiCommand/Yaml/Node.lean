/-!
# YAML nodes

The tree that a YAML text denotes before its scalars get a meaning: what a plain scalar stands for
depends on where it is read. Aliases are replaced by the nodes they name.
-/

namespace ApiCommand.Yaml

/-- What a tag says about a node. -/
inductive Tag where
  /-- There is no tag. -/
  | absent
  /-- The scalar is a truth value. -/
  | boolean
  /-- The scalar is an integer. -/
  | integer
  /-- The scalar is a floating-point number. -/
  | float
  /-- The scalar is null. -/
  | null
  /-- Any other tag known everywhere, which makes a scalar a text. -/
  | other
  /-- A tag of the document's own, which only its author knows. -/
  | foreign
  deriving DecidableEq

/-- A node. -/
inductive Node where
  /-- A text, and whether it stands there plainly, without quotes and not as a block. -/
  | scalar (tag : Tag) (plain : Bool) (text : String)
  | sequence (tag : Tag) (items : List Node)
  /-- Keys and values in the order of the text. -/
  | mapping (tag : Tag) (entries : List (Node × Node))

namespace Node

/-- The node that stands where nothing is written. -/
def absent : Node := scalar .absent true ""

/-- The node with a tag. -/
def withTag (tag : Tag) (n : Node) : Node :=
  match n with
  | scalar _ plain text => scalar tag plain text
  | sequence _ items => sequence tag items
  | mapping _ entries => mapping tag entries

/-- The node is written plainly and stands for null. -/
def isPlainNull (n : Node) : Bool :=
  match n with
  | scalar .absent true text | scalar .null true text =>
    ["", "null", "Null", "NULL", "~"].contains text
  | _ => false

end Node

end ApiCommand.Yaml
