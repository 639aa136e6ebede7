/-!
# Patterns as they are written

A `Term` is a regular expression as its text shows it, before flags are applied and names of
character properties are looked up.  Its depth is bounded, so that what walks over a term is.
-/

set_option autoImplicit false

namespace Concord.Regex

/-- A character of a pattern; `isByte` holds if it is written as `\x` and two digits. -/
structure Literal where
  char : Char
  isByte : Bool := false
deriving DecidableEq, Repr, Inhabited

/-- The classes with a one-letter escape. -/
inductive ShortClass where
  | digit | space | word
deriving DecidableEq, Repr, Inhabited

/-- A class named between `[:` and `:]`. -/
inductive AsciiClass where
  | alnum | alpha | ascii | blank | cntrl | digit | graph | lower | print | punct | space
  | upper | word | xdigit
deriving DecidableEq, Repr, Inhabited

/-- A character property by its name, or by the name of a property and of a value of it. -/
inductive PropertyName where
  | plain (name : String)
  | valued (name value : String) (negated : Bool)
deriving DecidableEq, Repr, Inhabited

/-- How two sets of characters are put together. -/
inductive SetOperation where
  | intersection | difference | symmetricDifference
deriving DecidableEq, Repr, Inhabited

/-- What stands in a bracketed class. -/
inductive ClassSet where
  | empty
  | literal (l : Literal)
  | range (first last : Literal)
  | ascii (kind : AsciiClass) (negated : Bool)
  | short (kind : ShortClass) (negated : Bool)
  | property (name : PropertyName) (negated : Bool)
  | bracketed (negated : Bool) (set : ClassSet)
  | union (items : List ClassSet)
  | operation (op : SetOperation) (left right : ClassSet)
deriving Repr, Inhabited

/-- A condition on the characters around a position. -/
inductive Assertion where
  | startLine | endLine | startText | endText
  | wordBoundary | notWordBoundary | wordStart | wordEnd | wordStartHalf | wordEndHalf
deriving DecidableEq, Repr, Inhabited

/-- The flags that a pattern can set. -/
inductive Flag where
  | ignoreCase | multiLine | dotMatchesNewLine | swapGreed | unicode | crlf | ignoreWhitespace
deriving DecidableEq, Repr, Inhabited

/-- Flags to set and, behind a negation, flags to clear. -/
structure FlagChange where
  set : List Flag
  clear : List Flag
deriving DecidableEq, Repr, Inhabited

/-- The state that the change gives to a flag, if it is about that flag. -/
def FlagChange.state? (f : FlagChange) (flag : Flag) : Option Bool :=
  if flag ∈ f.set then some true else if flag ∈ f.clear then some false else none

/-- A regular expression as it is written. -/
inductive Term where
  | empty
  | flags (change : FlagChange)
  | literal (l : Literal)
  | dot
  | assertion (a : Assertion)
  | short (kind : ShortClass) (negated : Bool)
  | property (name : PropertyName) (negated : Bool)
  | bracketed (negated : Bool) (set : ClassSet)
  | repetition (inner : Term) (least : Nat) (most : Option Nat)
  | group (change : Option FlagChange) (inner : Term)
  | alternation (branches : List Term)
  | concat (items : List Term)
deriving Repr, Inhabited

/-- A sequence of terms as one term. -/
def Term.ofItems : List Term → Term
  | [] => .empty
  | [t] => t
  | ts => .concat ts

/-- A choice of terms as one term. -/
def Term.ofBranches : List Term → Term
  | [] => .empty
  | [t] => t
  | ts => .alternation ts

/-- Items of a class as one set. -/
def ClassSet.ofItems : List ClassSet → ClassSet
  | [] => .empty
  | [s] => s
  | ss => .union ss

/-! ## Depth -/

namespace ClassSet

mutual

/-- How deep brackets, unions and operations nest. -/
def depth : ClassSet → Nat
  | bracketed _ s => s.depth + 1
  | union items => depthAll items + 1
  | operation _ l r => max l.depth r.depth + 1
  | _ => 0

/-- The greatest depth among some sets. -/
def depthAll : List ClassSet → Nat
  | [] => 0
  | s :: ss => max s.depth (depthAll ss)

end

end ClassSet

namespace Term

mutual

/-- How deep brackets, groups, repetitions, choices and sequences nest. -/
def depth : Term → Nat
  | bracketed _ s => s.depth + 1
  | repetition t _ _ => t.depth + 1
  | group _ t => t.depth + 1
  | alternation ts => depthAll ts + 1
  | concat ts => depthAll ts + 1
  | _ => 0

/-- The greatest depth among some terms. -/
def depthAll : List Term → Nat
  | [] => 0
  | t :: ts => max t.depth (depthAll ts)

end

end Term

end Concord.Regex
