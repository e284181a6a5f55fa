import ApiCommand.Text.Split
import ApiCommand.Yaml.Scalar

/-!
# YAML collections

Readers for nodes of every kind. Inside of brackets a node ends at a comma or a bracket. Outside,
the column says what belongs together: a collection consists of the items or keys in one column, and
what belongs to an item or a key is in columns further right, except that a sequence may stand in
the column of the key it belongs to. A key is on one line and has at most 1024 characters.
-/

namespace ApiCommand.Yaml

/-! ## Properties -/

/-- The anchor and the tag in front of a node. -/
structure Properties where
  anchor : Option String := none
  tag : Option Tag := none
  deriving DecidableEq

namespace Properties

/-- There are none. -/
def isEmpty (p : Properties) : Bool := p.anchor.isNone && p.tag.isNone

/-- Both together. A node has at most one anchor and one tag. -/
def merge? (p q : Properties) : Option Properties :=
  if (p.anchor.isSome && q.anchor.isSome) || (p.tag.isSome && q.tag.isSome) then none
  else some { anchor := p.anchor.or q.anchor, tag := p.tag.or q.tag }

/-- Gives a node its properties. -/
def apply (p : Properties) (n : Node) (c : Cursor) : Node × Cursor :=
  let n := n.withTag (p.tag.getD .absent)
  match p.anchor with
  | none => (n, c)
  | some name => (n, c.note name n)

end Properties

/-- The character may occur in the name of an anchor. -/
def isAnchorChar (c : Char) : Bool := c.isAlphanum || c == '-' || c == '_'

/-- Reads the name of an anchor after its mark. -/
def readAnchor (c : Cursor) : Option (String × Cursor) :=
  let name := c.rest.takeWhile isAnchorChar
  let next := c.skip name.length
  let closed := startsBlank next.rest || next.rest.head?.any fun x =>
    ['?', ':', ',', ']', '}', '%', '@', Char.ofNat 0x60].contains x
  if name.isEmpty || !closed then none else some (String.ofList name, next.withFresh false)

/-- The character may occur in a tag. -/
def isTagChar (c : Char) : Bool :=
  c.isAlphanum ||
    ['-', '_', ';', '/', '?', ':', '@', '&', '=', '+', '$', '.', '!', '~', '*', '\'', '(', ')',
      '%'].contains c

/-- The meaning of a tag that is written in full. -/
def Tag.ofName (name : String) : Tag :=
  match (Text.after? "tag:yaml.org,2002:".toList name.toList).map String.ofList with
  | some "bool" => boolean
  | some "int" => integer
  | some "float" => float
  | some "null" => null
  | _ => if name.toList.head? = some '!' then foreign else other

/-- The meaning of a tag that is written with one of the two usual handles. Other handles are not
known. A single `!` says nothing about a scalar. -/
def Tag.ofShorthand? (cs : List Char) : Option Tag :=
  match cs with
  | ['!'] => some absent
  | ['!', '!'] => none
  | '!' :: '!' :: name => some (ofName ("tag:yaml.org,2002:" ++ String.ofList name))
  | '!' :: name => if name.contains '!' then none else some foreign
  | _ => none

/-- Reads a tag. -/
def readTag (inFlow : Bool) (c : Cursor) : Option (Tag × Cursor) :=
  let isClosed (next : Cursor) : Bool :=
    startsBlank next.rest || (inFlow && next.looksAt [','])
  match c.rest with
  | '!' :: '<' :: rest =>
    let name := rest.takeWhile fun x => isTagChar x || [',', '[', ']'].contains x
    let next := c.skip (name.length + 3)
    if !name.isEmpty && (rest.drop name.length).head? = some '>' && isClosed next then
      some (.ofName (String.ofList name), next.withFresh false)
    else none
  | cs =>
    let name := cs.takeWhile isTagChar
    let next := c.skip name.length
    if isClosed next then (Tag.ofShorthand? name).map fun tag => (tag, next.withFresh false)
    else none

/-- Reads properties and moves on to the next token. Outside of brackets, only those on one line are
read. -/
def readProperties (inFlow : Bool) (fuel : Nat) (p : Properties) (c : Cursor) :
    Option (Properties × Cursor) :=
  match fuel with
  | 0 => some (p, c)
  | fuel + 1 =>
    let goOn (q : Properties) (next : Cursor) : Option (Properties × Cursor) := do
      let p ← p.merge? q
      let next := next.toToken inFlow
      if next.fresh then some (p, next) else readProperties inFlow fuel p next
    if c.looksAt ['&'] then do
      let (name, next) ← readAnchor (c.skip 1)
      goOn { anchor := some name } (next.forget name)
    else if c.looksAt ['!'] then do
      let (tag, next) ← readTag inFlow c
      goOn { tag := some tag } next
    else some (p, c)

/-- Properties are two at most; a third one is an error of its own. -/
def maxProperties : Nat := 3

/-! ## Scalars and aliases -/

/-- Reads a scalar that is plain or in quotes, or an alias, and moves on to the next token. -/
def readAtom (inFlow : Bool) (indent : Int) (p : Properties) (c : Cursor) :
    Option (Node × Cursor) := do
  let finish (plain : Bool) (cs : List Char) (next : Cursor) : Node × Cursor :=
    p.apply (.scalar .absent plain (String.ofList cs)) (next.toToken inFlow)
  match c.rest with
  | '*' :: _ =>
    let (name, next) ← readAnchor (c.skip 1)
    let n ← c.anchored? name
    if p.isEmpty then some (n, next.toToken inFlow) else none
  | x :: _ =>
    if x = '\'' ∨ x = '"' then
      let (cs, next) ← readQuoted x (c.rest.length + 1) (c.skip 1)
      some (finish false cs next)
    else if startsPlain inFlow c.rest then
      let (cs, next) ← readPlain inFlow indent c
      some (finish true cs next)
    else none
  | [] => none

/-- The longest key. -/
def maxKeyLength : Nat := 1024

/-- A key that starts at one place may end at another. -/
def keyFits (start last : Cursor) : Bool :=
  start.line == last.line && last.index ≤ start.index + maxKeyLength

/-! ## Inside of brackets -/

/-- A bracket opens here. -/
def startsBrackets (c : Cursor) : Bool := c.looksAt ['['] || c.looksAt ['\x7b']

/-- Nothing is written for a node here. -/
def closesFlow (c : Cursor) : Bool :=
  c.atClose || [',', ']', '}', ':'].any fun x => c.looksAt [x]

mutual

/-- Reads a node inside of brackets and moves on to the next token. -/
def readFlow (fuel : Nat) (indent : Int) (c : Cursor) : Option (Node × Cursor) :=
  match fuel with
  | 0 => none
  | fuel + 1 => do
    let (p, c) ← readProperties true maxProperties {} (c.withFresh false)
    if startsBrackets c then
      let (n, next) ← readBrackets fuel indent c
      some (p.apply n (next.toToken true))
    else if closesFlow c then
      if p.isEmpty then none else some (p.apply .absent c)
    else readAtom true indent p c

/-- Reads a sequence or a mapping with its brackets. -/
def readBrackets (fuel : Nat) (indent : Int) (c : Cursor) : Option (Node × Cursor) :=
  match fuel with
  | 0 => none
  | fuel + 1 => do
    let inside := (c.skip 1).toToken true
    if c.looksAt ['['] then
      let (items, next) ← readFlowItems fuel indent inside
      some (.sequence .absent items, next)
    else
      let (entries, next) ← readFlowEntries fuel indent inside
      some (.mapping .absent entries, next)

/-- Reads a node, or nothing if nothing is written here. -/
def readFlowOrAbsent (fuel : Nat) (indent : Int) (c : Cursor) : Option (Node × Cursor) :=
  match fuel with
  | 0 => none
  | fuel + 1 =>
    if c.looksAt [','] || c.looksAt [']'] || c.looksAt ['\x7d'] then some (.absent, c)
    else readFlow fuel indent c

/-- Reads the value after a key, if there is one. -/
def readFlowValue (fuel : Nat) (indent : Int) (c : Cursor) : Option (Node × Cursor) :=
  match fuel with
  | 0 => none
  | fuel + 1 =>
    if c.looksAt [':'] then readFlowOrAbsent fuel indent ((c.skip 1).toToken true)
    else some (.absent, c)

/-- Reads a key and its value, or a node that is no key, for which the value is `none`. -/
def readFlowPair (fuel : Nat) (indent : Int) (c : Cursor) :
    Option (Node × Option Node × Cursor) :=
  match fuel with
  | 0 => none
  | fuel + 1 =>
    if c.atIndicator '?' then do
      let next := (c.skip 1).toToken true
      let (key, next) ←
        if next.looksAt [':'] then some (.absent, next) else readFlowOrAbsent fuel indent next
      let (value, next) ← readFlowValue fuel indent next
      some (key, some value, next)
    else do
      let (key, next) ← readFlow fuel indent c
      if next.looksAt [':'] then
        -- A key without a mark in front may not be too long.
        if keyFits c next then
          let (value, next) ← readFlowValue fuel indent next
          some (key, some value, next)
        else none
      else some (key, none, next)

/-- Reads the items of a sequence and its closing bracket. A key among them stands for a mapping
with one entry. -/
def readFlowItems (fuel : Nat) (indent : Int) (c : Cursor) : Option (List Node × Cursor) :=
  match fuel with
  | 0 => none
  | fuel + 1 =>
    if c.looksAt [']'] then some ([], ((c.skip 1).withFresh false))
    else do
      let (key, value, next) ← readFlowPair fuel indent c
      let item := match value with
        | none => key
        | some value => .mapping .absent [(key, value)]
      if next.looksAt [','] then
        let (items, last) ← readFlowItems fuel indent ((next.skip 1).toToken true)
        some (item :: items, last)
      else if next.looksAt [']'] then some ([item], (next.skip 1).withFresh false)
      else none

/-- Reads the entries of a mapping and its closing bracket. -/
def readFlowEntries (fuel : Nat) (indent : Int) (c : Cursor) :
    Option (List (Node × Node) × Cursor) :=
  match fuel with
  | 0 => none
  | fuel + 1 =>
    if c.looksAt ['\x7d'] then some ([], ((c.skip 1).withFresh false))
    else do
      let (key, value, next) ← readFlowPair fuel indent c
      let entry := (key, value.getD .absent)
      if next.looksAt [','] then
        let (entries, last) ← readFlowEntries fuel indent ((next.skip 1).toToken true)
        some (entry :: entries, last)
      else if next.looksAt ['\x7d'] then some ([entry], (next.skip 1).withFresh false)
      else none

end

/-! ## Outside of brackets -/

/-- Reads what may be a key: properties and a scalar, an alias or a collection in brackets, if there
is one. Moves on to the next token. -/
def readInline (fuel : Nat) (indent : Int) (p : Properties) (c : Cursor) :
    Option (Node × Cursor) := do
  if startsBrackets c then
    let (n, next) ← readBrackets fuel indent c
    some (p.apply n (next.toToken false))
  else if c.atIndicator ':' || c.atClose then
    if p.isEmpty then none else some (p.apply .absent c)
  else readAtom false indent p c

mutual

/-- Reads the node that belongs to something in column `indent`, with properties in front of it, and
moves on to the next token. If the node is the value of a key, a sequence may start in that
column. -/
def readNode (fuel : Nat) (indent : Int) (isValue : Bool) (p : Properties) (c : Cursor) :
    Option (Node × Cursor) :=
  match fuel with
  | 0 => none
  | fuel + 1 =>
    let isBlock := c.looksAt ['|'] || c.looksAt ['>']
    if c.atClose || (c.column : Int) < indent then some (p.apply .absent c)
    else if isBlock then do
      let (text, next) ← readBlockText (c.looksAt ['>']) indent (c.skip 1)
      some (p.apply (.scalar .absent false (String.ofList text)) (next.toToken false))
    else if c.atIndicator '-' then
      if !c.fresh then none
      -- A dash in the column of a key still belongs to the value of that key.
      else if indent < c.column || isValue then do
        let (items, next) ← readItems fuel c.column (indent == c.column) c
        some (p.apply (.sequence .absent items) next)
      else some (p.apply .absent c)
    -- Only a sequence may stand in the column of what it belongs to.
    else if (c.column : Int) = indent then some (p.apply .absent c)
    else if c.atIndicator '?' then
      if !c.fresh then none
      else do
        let (entries, next) ← readEntries fuel c.column c
        some (p.apply (.mapping .absent entries) next)
    else do
      let (own, next) ← readProperties false maxProperties {} c
      -- Properties that fill a line of their own belong to the whole node below.
      if !own.isEmpty && next.fresh then
        let p ← p.merge? own
        readNode fuel indent isValue p next
      else if !next.atClose && (next.looksAt ['|'] || next.looksAt ['>']) then
        let p ← p.merge? own
        readNode fuel indent isValue p next
      else
        let (n, last) ← readInline fuel indent own next
        -- A colon shows that what was read is the first key of a mapping. The mapping has the
        -- properties `p`.
        if last.atIndicator ':' && last.line == c.line then
          if c.fresh && keyFits c last then
            let (entries, last) ← readEntriesFrom fuel c.column n last
            some (p.apply (.mapping .absent entries) last)
          else none
        -- There is no key, and so both groups of properties belong to the scalar.
        else if p.isEmpty then some (n, last)
        else do
          let p ← p.merge? own
          readInline fuel indent p next

/-- Reads the items of a sequence in a column. A sequence that is the value of a key in that column
ends where no item starts. -/
def readItems (fuel : Nat) (column : Nat) (isValue : Bool) (c : Cursor) :
    Option (List Node × Cursor) :=
  match fuel with
  | 0 => none
  | fuel + 1 =>
    if c.atClose || c.column < column then some ([], c)
    else if c.column = column ∧ c.fresh ∧ c.atIndicator '-' then do
      let (item, next) ← readNode fuel column false {} (((c.skip 1).withFresh true).toToken false)
      let (items, last) ← readItems fuel column isValue next
      some (item :: items, last)
    else if c.column = column ∧ isValue then some ([], c)
    else none

/-- Reads the entries of a mapping in a column. -/
def readEntries (fuel : Nat) (column : Nat) (c : Cursor) :
    Option (List (Node × Node) × Cursor) :=
  match fuel with
  | 0 => none
  | fuel + 1 =>
    if c.atClose || c.column < column then some ([], c)
    -- Deeper columns belong to the value of the last key and have been read with it.
    else if c.column != column || !c.fresh then none
    else if c.atIndicator '?' then do
      let (key, next) ← readNode fuel column true {} (((c.skip 1).withFresh true).toToken false)
      let (value, next) ←
        if next.column = column ∧ next.atIndicator ':' then
          readNode fuel column true {} (((next.skip 1).withFresh true).toToken false)
        else some (.absent, next)
      let (entries, last) ← readEntries fuel column next
      some ((key, value) :: entries, last)
    else do
      let (own, next) ← readProperties false maxProperties {} c
      let (key, last) ← readInline fuel column own next
      if last.atIndicator ':' && keyFits c last then readEntriesFrom fuel column key last
      else none

/-- Reads the entries of a mapping in a column after its first key. -/
def readEntriesFrom (fuel : Nat) (column : Nat) (key : Node) (c : Cursor) :
    Option (List (Node × Node) × Cursor) :=
  match fuel with
  | 0 => none
  | fuel + 1 => do
    let (value, next) ← readNode fuel column true {} (((c.skip 1).withFresh false).toToken false)
    let (entries, last) ← readEntries fuel column next
    some ((key, value) :: entries, last)

end

end ApiCommand.Yaml
