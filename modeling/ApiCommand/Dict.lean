/-!
# Dictionaries

A dictionary is a list of entries whose keys ascend strictly. Keys are ordered by code point,
which is also the byte order of their UTF-8 form, so every traversal of a dictionary visits its
keys in one reproducible order. `Dict.insert` and `Dict.ofList` keep the order; `Dict.Sorted`
states it.
-/

universe u v

namespace ApiCommand

/-- Entries by ascending key. -/
abbrev Dict (α : Type u) := List (String × α)

namespace Dict

variable {α : Type u} {β : Type v}

/-- Keys ascend strictly, so no key occurs twice. -/
def Sorted (d : Dict α) : Prop :=
  d.Pairwise fun a b => a.1 < b.1

/-- The value stored under `key`, if any. -/
def get? (d : Dict α) (key : String) : Option α :=
  match d with
  | [] => none
  | (k, v) :: rest => if k = key then some v else get? rest key

/-- Whether some value is stored under `key`. -/
def contains (d : Dict α) (key : String) : Bool :=
  (get? d key).isSome

/-- Stores `value` under `key`, replacing what was there. -/
def insert (d : Dict α) (key : String) (value : α) : Dict α :=
  match d with
  | [] => [(key, value)]
  | (k, v) :: rest =>
    if k = key then (key, value) :: rest
    else if key < k then (key, value) :: (k, v) :: rest
    else (k, v) :: insert rest key value

/-- Stores `value` under `key` unless the key is taken. -/
def insertNew (d : Dict α) (key : String) (value : α) : Dict α :=
  if contains d key then d else insert d key value

/-- The dictionary of a list of entries; of two entries with one key the later counts. -/
def ofList (entries : List (String × α)) : Dict α :=
  entries.foldl (fun d e => insert d e.1 e.2) []

/-- Stores every entry of `other`, which wins over `d` on shared keys. -/
def extend (d other : Dict α) : Dict α :=
  other.foldl (fun d e => insert d e.1 e.2) d

/-- The keys, ascending. -/
def keys (d : Dict α) : List String :=
  d.map Prod.fst

/-- Applies `f` to every value. -/
def mapValues (f : α → β) (d : Dict α) : Dict β :=
  d.map fun e => (e.1, f e.2)

end Dict

end ApiCommand
