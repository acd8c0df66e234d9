/-!
# Sets of characters given by code point ranges

A character class of a standard is a table of closed ranges in increasing order.
`Ranges.contains` looks a code point up by bisection; it asserts nothing about
tables that are not in increasing order.
-/

namespace Synopsis.Text

/-- Closed ranges of code points, in increasing order and disjoint. -/
abbrev Ranges := Array (Nat × Nat)

namespace Ranges

/-- Bisection between the indices `low` and `high` (exclusive), at most `fuel` steps. -/
def search (table : Ranges) (code : Nat) : Nat → Nat → Nat → Option (Nat × Nat)
  | 0, _, _ => none
  | fuel + 1, low, high =>
    if low < high then
      let middle := (low + high) / 2
      match table[middle]? with
      | none => none
      | some (first, last) =>
        if code < first then search table code fuel low middle
        else if last < code then search table code fuel (middle + 1) high
        else some (first, last)
    else none

/-- The range that holds `code`, if there is one. -/
def find? (table : Ranges) (code : Nat) : Option (Nat × Nat) :=
  search table code (table.size + 1) 0 table.size

def contains (table : Ranges) (code : Nat) : Bool :=
  (find? table code).isSome

end Ranges

end Synopsis.Text
