/-!
# Regular expressions

A `Regex` matches stretches of a text.  Its meaning is given by sets of positions: `Regex.ends`
says at which positions a match can end if it begins at one of a set.  A text with `n` characters
has `n + 1` positions, and a set of them is a number with one bit for each.

Whether a repetition is greedy makes no difference to whether there is a match, so it is not
kept.
-/

set_option autoImplicit false

namespace Concord

/-- A regular expression over sets of characters. -/
inductive Regex where
  /-- The empty stretch. -/
  | empty
  /-- One character of a set. -/
  | chars (p : Char → Bool)
  /-- The empty stretch, where a condition on the characters before and behind it holds. -/
  | look (p : Option Char → Option Char → Bool)
  | seq (a b : Regex)
  | alt (a b : Regex)
  /-- At least `least` matches in a row, and no more than `most` if there is a bound. -/
  | repeated (r : Regex) (least : Nat) (most : Option Nat)

namespace Regex

/-- Expressions one behind the other. -/
def seqAll (rs : List Regex) : Regex := rs.foldr seq empty

/-- The expression that matches nothing. -/
def never : Regex := chars fun _ ↦ false

/-- A choice of expressions. -/
def altAll : List Regex → Regex
  | [] => never
  | [r] => r
  | r :: rs => alt r (altAll rs)

/-! ## Sets of positions -/

/-- A set of positions of a text: bit `i` is set if position `i` is in it. -/
abbrev Positions := Nat

/-- The positions behind the characters of the text that are in `p` and stand at a position of
the set. -/
def advance (p : Char → Bool) : List Char → Positions → Positions
  | [], _ => 0
  | c :: cs, s =>
    2 * ((if s % 2 = 1 ∧ p c then 1 else 0) + advance p cs (s / 2))

/-- The positions of the set where `p` holds of the characters before and behind, with `before` in
front of the text. -/
def filterLook (p : Option Char → Option Char → Bool) (before : Option Char) :
    List Char → Positions → Positions
  | [], s => if s % 2 = 1 ∧ p before none then 1 else 0
  | c :: cs, s =>
    (if s % 2 = 1 ∧ p before (some c) then 1 else 0) + 2 * filterLook p (some c) cs (s / 2)

/-- Applies `f` a number of times, or until it changes nothing any more. -/
def iterate (f : Positions → Positions) : (times : Nat) → Positions → Positions
  | 0, s => s
  | times + 1, s =>
    let t := f s
    if t = s then s else iterate f times t

/-- All that is reached by applying `f` up to a number of times. -/
def reach (f : Positions → Positions) : (times : Nat) → Positions → Positions
  | 0, s => s
  | times + 1, s =>
    let t := s ||| f s
    if t = s then s else reach f times t

/-- The positions where a match can end that begins at a position of the set.  In a text with `n`
characters a repetition makes no progress after `n + 1` turns. -/
def ends (text : List Char) : Regex → Positions → Positions
  | empty, s => s
  | chars p, s => advance p text s
  | look p, s => filterLook p none text s
  | seq a b, s => ends text b (ends text a s)
  | alt a b, s => ends text a s ||| ends text b s
  | repeated r least most, s =>
    let turns := text.length + 1
    let enough := iterate (ends text r) (min least turns) s
    match most with
    | none => reach (ends text r) turns enough
    | some most => reach (ends text r) (min (most - least) turns) enough

/-- The set of all positions of a text. -/
def allPositions (text : List Char) : Positions := Nat.pow 2 (text.length + 1) - 1

/-- Whether some stretch of the text matches. -/
def isMatch (r : Regex) (text : List Char) : Bool := r.ends text (allPositions text) != 0

end Regex

end Concord
