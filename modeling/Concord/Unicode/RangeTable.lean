/-!
# Sets of code points

A set of characters that a standard gives as a list is a table of ranges, in order and apart, and
is searched by halving.
-/

set_option autoImplicit false

namespace Concord

/-- Ranges of code points, both ends included, in ascending order. -/
abbrev RangeTable := Array (Nat × Nat)

namespace RangeTable

/-- Whether a range among those from `lo` up to, and without, `hi` holds the code point. -/
def containsBetween (t : RangeTable) (x lo hi : Nat) : Bool :=
  if lo < hi then
    let mid := (lo + hi) / 2
    match t[mid]? with
    | none => false
    | some (first, last) =>
      if x < first then containsBetween t x lo mid
      else if last < x then containsBetween t x (mid + 1) hi
      else true
  else false
termination_by hi - lo

/-- Whether a range of the table holds the code point. -/
def contains (t : RangeTable) (x : Nat) : Bool := t.containsBetween x 0 t.size

end RangeTable

end Concord
