import ApiCommand.Json.Basic

/-!
# TOML tables

A table grows while a document is read. A header opens a table and makes the tables above it; a key
with dots makes the tables that it goes through. No table is opened twice, no key is set twice, and
values that are written out are closed.
-/

namespace ApiCommand.Toml

/-- How a table came about. -/
inductive Origin where
  /-- Only tables below it were opened. -/
  | implied
  /-- It was opened by a header. -/
  | opened
  /-- A key with dots goes through it. -/
  | dotted
  deriving DecidableEq

/-- What stands under a key. -/
inductive Item where
  | value (v : Json)
  | table (origin : Origin) (entries : List (String × Item))
  /-- Tables opened one after the other under one key, the last one first. -/
  | tables (last : List (String × Item)) (earlier : List (List (String × Item)))

/-- The entries of a table. -/
abbrev Entries := List (String × Item)

namespace Item

mutual

/-- The value of an item. -/
def toJson (item : Item) : Json :=
  match item with
  | value v => v
  | table _ entries => .ofMembers (membersOf entries)
  | tables last earlier =>
    .array ((Json.ofMembers (membersOf last) :: listOf earlier).reverse)

/-- The members of an object for the entries of a table. -/
def membersOf (entries : List (String × Item)) : List (String × Json) :=
  match entries with
  | [] => []
  | (key, item) :: rest => (key, toJson item) :: membersOf rest

/-- The objects for a list of tables. -/
def listOf (tables : List (List (String × Item))) : List Json :=
  match tables with
  | [] => []
  | entries :: rest => .ofMembers (membersOf entries) :: listOf rest

end

end Item

namespace Entries

/-- The entries with an item under a key. -/
def put (entries : Entries) (key : String) (item : Item) : Entries :=
  (entries.filter fun e => e.1 != key) ++ [(key, item)]

/-- Changes the table under a path of keys. Tables on the way are made if they are missing; of
tables opened one after the other the last one counts. -/
def within (path : List String) (change : Entries → Option Entries) (entries : Entries) :
    Option Entries :=
  match path with
  | [] => change entries
  | key :: path =>
    match entries.lookup key with
    | none => (within path change []).map fun inner => put entries key (.table .implied inner)
    | some (.table origin inner) =>
      (within path change inner).map fun inner => put entries key (.table origin inner)
    | some (.tables last earlier) =>
      (within path change last).map fun last => put entries key (.tables last earlier)
    | some (.value _) => none

/-- Opens the table with a key. -/
def openTable (key : String) (entries : Entries) : Option Entries :=
  match entries.lookup key with
  | none => some (put entries key (.table .opened []))
  | some (.table .implied inner) => some (put entries key (.table .opened inner))
  | _ => none

/-- Opens a further table with a key. -/
def openFurther (key : String) (entries : Entries) : Option Entries :=
  match entries.lookup key with
  | none => some (put entries key (.tables [] []))
  | some (.tables last earlier) => some (put entries key (.tables [] (last :: earlier)))
  | _ => none

/-- Sets the value under a key with dots. -/
def set (path : List String) (v : Json) (entries : Entries) : Option Entries :=
  match path with
  | [] => none
  | [key] => if (entries.lookup key).isSome then none else some (put entries key (.value v))
  | key :: path =>
    match entries.lookup key with
    | none => (set path v []).map fun inner => put entries key (.table .dotted inner)
    | some (.table origin inner) =>
      if origin = .opened then none
      else (set path v inner).map fun inner => put entries key (.table origin inner)
    | some _ => none

/-- The object that entries make. -/
def toJson (entries : Entries) : Json := (Item.table .opened entries).toJson

end Entries

end ApiCommand.Toml
