import ApiCommand.Link.Follow

/-!
# Links that remember

A link looks up the operation that it leads to once, in the first catalog that it is asked about,
and keeps to the answer, also if there is none. The schema of the values that a caller may add is
kept as well. `LinkMemo` is a link with the answers it has given so far.
-/

namespace ApiCommand

/-- A link with what is known of it. -/
structure LinkMemo where
  link : Link
  /-- The operation that the link leads to, if that was looked up. -/
  target : Option (Option Operation) := none
  /-- The schema of the values that a caller may add, if that was asked for. -/
  additional : Option Schema := none

namespace LinkMemo

/-- The link after its target was looked up. -/
def located (m : LinkMemo) (c : Catalog) : LinkMemo :=
  { m with target := some (m.target.getD (m.link.target? c)) }

/-- The operation that the link leads to. -/
def target? (m : LinkMemo) (c : Catalog) : Option Operation := m.target.getD (m.link.target? c)

/-- The operation that the link leads to, which has to be there. -/
def reach (m : LinkMemo) (c : Catalog) : Except Fault Operation :=
  match m.target? c with
  | some op => .ok op
  | none => .error (.unreachableTarget m.link.name)

/-- The schema of the values that a caller may add, if the link leads somewhere. -/
def additionalSchema? (m : LinkMemo) (c : Catalog) : Option Schema :=
  (m.target? c).map fun op => m.additional.getD (m.link.additionalSchema op)

/-- The link after its target was looked up and the schema was asked for. -/
def opened (m : LinkMemo) (c : Catalog) : LinkMemo :=
  { m.located c with additional := m.additional.or (m.additionalSchema? c) }

/-- The name of the link, unless it leads nowhere. -/
def displayName (m : LinkMemo) (c : Catalog) : String :=
  if (m.target? c).isSome then m.link.name else LinkSummary.missingName

/-- The summary of the link. -/
def summary (m : LinkMemo) (c : Catalog) : LinkSummary :=
  .ofLink m.link (m.target? c) (m.additionalSchema? c)

/-- The inputs of the operation that the link leads to. -/
def prepare (m : LinkMemo) (c : Catalog) (r : Result) (additional : Dict Json) :
    Except Fault Inputs := do
  let op ← m.reach c
  m.link.inputs op (m.additional.getD (m.link.additionalSchema op)) r additional

end LinkMemo

end ApiCommand
