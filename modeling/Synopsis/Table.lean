/-!
# Tables in insertion order

A table maps names to values and keeps the order in which the names first came. Putting a value
under a name that is there replaces the value and keeps the place. Sorting is by insertion, so that
entries of equal rank keep their order. A limit cuts a list after that many items; a negative limit
leaves away that many at the end.
-/

namespace Synopsis

/-- Names with values, in the order of first insertion. -/
abbrev Table (α : Type) := List (String × α)

namespace Table

variable {α : Type}

/-- Puts a value under a name: in its place if the name is there, else at the end. -/
def put (name : String) (value : α) : Table α → Table α
  | [] => [(name, value)]
  | (key, old) :: rest =>
    if key = name then (name, value) :: rest else (key, old) :: put name value rest

def get? (name : String) : Table α → Option α
  | [] => none
  | (key, value) :: rest => if key = name then some value else get? name rest

/-- The table that the pairs give when they are put one after another. -/
def ofPairs (pairs : List (String × α)) : Table α :=
  pairs.foldl (fun table (name, value) => put name value table) []

/-- Puts all entries of `more`, in order. -/
def merge (table more : Table α) : Table α :=
  more.foldl (fun table (name, value) => put name value table) table

def names (table : Table α) : List String := table.map Prod.fst

def tally (name : String) (table : Table Int) : Table Int :=
  put name ((get? name table).getD 0 + 1) table

end Table

variable {α : Type}

/-- Puts an item before the first one that it may stand before. -/
def insertBy (le : α → α → Bool) (item : α) : List α → List α
  | [] => [item]
  | other :: rest => if le item other then item :: other :: rest else other :: insertBy le item rest

def sortBy (le : α → α → Bool) (items : List α) : List α := items.foldr (insertBy le) []

/-- The first `limit` items, or all but the last `-limit` ones. -/
def leading (limit : Int) (xs : List α) : List α :=
  if 0 ≤ limit then xs.take limit.toNat else xs.take (xs.length - limit.natAbs)

/-- The entries with the largest counts first, entries of equal count in their order, cut at a
limit. -/
def mostCommon (counts : Table Int) (limit : Int) : Table Int :=
  leading limit (sortBy (fun a b => b.2 ≤ a.2) counts)

end Synopsis
