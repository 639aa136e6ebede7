/-!
# Edit distance and suggestions

`editDistance` counts the insertions, deletions and replacements of single characters that turn
one text into another.  It is worked out row by row: the row of a front of the first text holds its
distances to all fronts of the second.

`suggest` picks for a name that is not known the nearest of the known ones.
-/

set_option autoImplicit false

namespace Concord

/-- The row behind `row` for one more character `a` of the first text, without its first entry.
`corner` is the first entry of `row` and `left` the entry before the place. -/
def nextRowFrom (a : Char) : (corner left : Nat) → List Char → (row : List Nat) → List Nat
  | corner, left, b :: bs, above :: row =>
    let here := min (min (above + 1) (left + 1)) (corner + if a = b then 0 else 1)
    here :: nextRowFrom a above here bs row
  | _, _, _, _ => []

/-- The row behind `row` for one more character of the first text. -/
def nextRow (bs : List Char) (row : List Nat) (a : Char) : List Nat :=
  match row with
  | [] => []
  | corner :: row => (corner + 1) :: nextRowFrom a corner (corner + 1) bs row

/-- The last row: the distances of `as` to all fronts of `bs`. -/
def distanceRow (as bs : List Char) : List Nat :=
  as.foldl (nextRow bs) (List.range (bs.length + 1))

/-- The least number of characters to insert, delete or replace to turn one text into another. -/
def editDistance (a b : String) : Nat :=
  (distanceRow a.toList b.toList).getLast?.getD 0

/-- The greatest distance at which a name still counts as a slip of another. -/
def maxSuggestionDistance : Nat := 2

/-- The nearer of the best candidate so far and one more; of two equally near ones the earlier. -/
def nearer (input : String) (best : Option (Nat × String)) (candidate : String) :
    Option (Nat × String) :=
  let d := editDistance candidate input
  if candidate = input ∨ maxSuggestionDistance < d then best
  else match best with
    | none => some (d, candidate)
    | some (e, name) => if d < e then some (d, candidate) else some (e, name)

/-- The first of the nearest candidates that differ from the input, if one is near enough. -/
def suggest (input : String) (candidates : List String) : Option String :=
  (candidates.foldl (nearer input) none).map Prod.snd

end Concord
