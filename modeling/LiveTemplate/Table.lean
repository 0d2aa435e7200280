/-!
# Keyed lists in order of first arrival

A table is a list of entries with text keys.  Inserting under a present key replaces the value in
place; inserting a new key appends it.  Attributes, the members of data objects, reactive fields
and registries are all tables.
-/

namespace LiveTemplate

/-- Entries with text keys, in order of first arrival. -/
abbrev Table (α : Type) := List (String × α)

namespace Table

variable {α : Type}

/-- The value under a key. -/
def find? : Table α → String → Option α
  | [], _ => none
  | (k, v) :: rest, key => if k = key then some v else find? rest key

/-- Whether a key is present. -/
def hasKey (table : Table α) (key : String) : Bool := (find? table key).isSome

/-- Put a value under a key: in place if the key is present, else at the end. -/
def insert : Table α → String → α → Table α
  | [], key, value => [(key, value)]
  | (k, v) :: rest, key, value =>
    if k = key then (key, value) :: rest else (k, v) :: insert rest key value

/-- Remove the entry of a key. -/
def erase : Table α → String → Table α
  | [], _ => []
  | (k, v) :: rest, key => if k = key then rest else (k, v) :: erase rest key

/-- Take the entry of a key out: the value that it held, and the other entries. -/
def pop : Table α → String → Option α × Table α
  | [], _ => (none, [])
  | (k, v) :: rest, key =>
    if k = key then (some v, rest)
    else
      let (value, others) := pop rest key
      (value, (k, v) :: others)

/-- The keys, in order. -/
def keys (table : Table α) : List String := table.map Prod.fst

/-- The values, in order of their keys. -/
def values (table : Table α) : List α := table.map Prod.snd

/-- The table that results from inserting entries one after another. -/
def ofEntries (entries : List (String × α)) : Table α :=
  entries.foldl (fun table entry => insert table entry.1 entry.2) []

end Table

end LiveTemplate
