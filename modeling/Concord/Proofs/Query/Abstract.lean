import Mathlib.Computability.Language
import Concord.Proofs.Query.Cutting
import Concord.Proofs.Query.Shape

/-!
# Abstract queries

A query as its author means it, before it is written down: a list of patterns, where names are
words that can stand in a text and strings are the values that they stand for.

* `Item.fits n` says that a pattern nests at most `n` levels deep, and that its groups can be told
  from trees.
* `Item.shape` is what a pattern says, in the form in which it is read off a text.
* `Item.spellings` are the ways to write a pattern as a sequence of pieces.  There is more than one
  because a string can be escaped in more than one way (`Spells`).
-/

set_option autoImplicit false

namespace Concord.Query.Abstract

/-! ## Names -/

/-- A character of `start` and then any characters of `part`. -/
structure Word (start part : Char → Bool) where
  first : Char
  rest : List Char
  first_ok : start first = true
  rest_ok : ∀ c ∈ rest, part c = true

/-- The characters of a word. -/
def Word.text {start part : Char → Bool} (w : Word start part) : List Char := w.first :: w.rest

/-- A node type or a bare argument of a predicate; an underscore by itself is one too. -/
abbrev Label := Word isIdentStart isIdentPart

/-- The name of a field or of a subtype, which is not an underscore by itself. -/
structure Name where
  label : Label
  ne_underscore : label.text ≠ ['_']

/-- The name of a capture, without its marker. -/
abbrev CaptureName := Word isNameStart isIdentPart

/-- The name of a predicate without its marker; a `?` or `!` may close it. -/
structure PredicateName where
  word : Word isNameStart isPredicatePart
  mark : Option Char
  mark_ok : ∀ c ∈ mark, isMark c = true

/-- `*`, `+` or `?` -/
inductive Repeat where
  | star | plus | question
deriving DecidableEq, Repr

/-! ## Patterns -/

/-- An argument of a predicate. -/
inductive Arg where
  | capture (name : CaptureName)
  | str (value : String)
  | ident (label : Label)

mutual

/-- A pattern without its quantifier and captures. -/
inductive Atom where
  /-- `(label/subtype member ...)` -/
  | tree (label : Label) (subtype : Option Name) (members : List Member)
  /-- `(member member ...)` -/
  | group (members : List Member)
  /-- `[branch ...]` -/
  | alternation (branches : List Item)
  | str (value : String)
  /-- `_` -/
  | wildcard
  /-- `.` -/
  | anchor
  /-- `!name` -/
  | negatedField (name : Name)

/-- A pattern. -/
inductive Item where
  /-- `atom* @name @name ...` -/
  | plain (atom : Atom) (mark : Option Repeat) (captures : List CaptureName)
  /-- `name: value` -/
  | field (name : Name) (value : Item)

/-- What stands in a tree or a group. -/
inductive Member where
  | item (item : Item)
  /-- `(#name argument ...)` -/
  | predicate (name : PredicateName) (args : List Arg)

end

/-! ### Patterns that can be written -/

/-- Whether a group may begin with the member: its text does not begin with a name or `_`, which
would make the group a tree. -/
def Member.opensGroup : Member → Bool
  | .item (.plain .wildcard _ _) | .item (.field _ _) => false
  | _ => true

section Nested

variable (within : Item → Bool)

/-- Whether a member can be written, where `within` says it of patterns and `levels` are left for a
predicate. -/
def Member.fits (levels : Nat) : Member → Bool
  | .item i => within i
  | .predicate _ _ => 0 < levels

/-- Whether an atom can be written, where `within` says it of the patterns in it. -/
def Atom.fits (levels : Nat) : Atom → Bool
  | .tree _ _ members => members.all (Member.fits within levels)
  | .group members => members.all (Member.fits within levels) && members.head?.any Member.opensGroup
  | .alternation branches => branches.all within
  | .str _ | .wildcard | .anchor | .negatedField _ => true

end Nested

/-- Whether a pattern nests at most so many levels deep, and has no group that would be read as a
tree.  The pattern is a level by itself, and so is each predicate and each value of a field. -/
def Item.fits : Nat → Item → Bool
  | 0, _ => false
  | levels + 1, .plain atom _ _ => atom.fits (fits levels) levels
  | levels + 1, .field _ value => value.fits levels

/-! ## What patterns say -/

/-- A word as a string. -/
def Word.string {start part : Char → Bool} (w : Word start part) : String := String.ofList w.text

/-- A name as a string. -/
def Name.string (n : Name) : String := n.label.string

/-- The name of a predicate as a string. -/
def PredicateName.string (n : PredicateName) : String :=
  String.ofList (n.word.text ++ n.mark.toList)

/-- A quantifier as a string. -/
def Repeat.string : Repeat → String
  | star => "*"
  | plus => "+"
  | question => "?"

/-- What an argument says. -/
def Arg.shape : Arg → ClauseArg
  | .capture name => .capture name.string
  | .str value => .string value
  | .ident label => .ident label.string

/-- The shape of a pattern with a quantifier, if there is one. -/
def inMark (mark : Option Repeat) (s : Shape) : Shape :=
  match mark with
  | none => s
  | some m => .quantified (some m.string) (some s)

/-- The shape of a pattern with captures, if there are any. -/
def inNames (names : List CaptureName) (s : Shape) : Shape :=
  if names.isEmpty then s else .captured (names.map Word.string) (some s)

/-- What the predicates among some members say. -/
def Member.predicateShapes : List Member → List PredicateShape
  | [] => []
  | .item _ :: ms => predicateShapes ms
  | .predicate name args :: ms => ⟨name.string, args.map Arg.shape⟩ :: predicateShapes ms

mutual

/-- What an atom says. -/
def Atom.shape : Atom → Shape
  | .tree label subtype members =>
    .tree (some label.string) (subtype.map Name.string) (Member.shapes members)
      (Member.predicateShapes members)
  | .group members => .group (Member.shapes members) (Member.predicateShapes members)
  | .alternation branches => .alternation (Item.shapes branches)
  | .str value => .str value
  | .wildcard => .wildcard
  | .anchor => .anchor
  | .negatedField name => .negatedField (some name.string)

/-- What a pattern says. -/
def Item.shape : Item → Shape
  | .plain atom mark captures => inNames captures (inMark mark atom.shape)
  | .field name value => .field (some name.string) (some value.shape)

/-- What some patterns say. -/
def Item.shapes : List Item → List Shape
  | [] => []
  | i :: is => i.shape :: Item.shapes is

/-- What the patterns among some members say. -/
def Member.shapes : List Member → List Shape
  | [] => []
  | .item i :: ms => i.shape :: Member.shapes ms
  | .predicate _ _ :: ms => Member.shapes ms

end

/-! ## How patterns are written -/

/-- The piece of a label. -/
def Label.piece (l : Label) : Piece :=
  .lexeme (if l.text = ['_'] then .underscore else .ident) l.text

/-- The piece of a name. -/
def Name.piece (n : Name) : Piece := .lexeme .ident n.label.text

/-- The piece of a capture. -/
def CaptureName.piece (n : CaptureName) : Piece := .lexeme .captureName ('@' :: n.text)

/-- The piece of the name of a predicate. -/
def PredicateName.piece (n : PredicateName) : Piece :=
  .lexeme .predicateName ('#' :: (n.word.text ++ n.mark.toList))

/-- The kind of a quantifier. -/
def Repeat.kind : Repeat → TokenKind
  | star => .star
  | plus => .plus
  | question => .question

/-- The piece of a quantifier. -/
def Repeat.piece (r : Repeat) : Piece := .lexeme r.kind r.string.toList

/-- The characters between the quotes of a string literal spell a value: a character stands for
itself if it is no quote and no backslash, and behind a backslash, any character but a line break
stands for what the escape says. -/
inductive Spells : List Char → List Char → Prop where
  | nil : Spells [] []
  | plain {c : Char} {raw value : List Char} (hquote : c ≠ '"') (hslash : c ≠ '\\')
    (h : Spells raw value) : Spells (c :: raw) (c :: value)
  | escaped {d : Char} {raw value : List Char} (hbreak : d ≠ '\n') (h : Spells raw value) :
    Spells ('\\' :: d :: raw) (escapedChar d :: value)

/-- The literals that stand for a string. -/
def literals (value : String) : Language Piece :=
  {ps | ∃ raw, Spells raw value.toList ∧ ps = [.literal raw]}

/-- The ways to write an argument. -/
def Arg.spellings : Arg → Language Piece
  | .capture name => {[CaptureName.piece name]}
  | .str value => literals value
  | .ident label => {[Label.piece label]}

/-- The ways to write arguments one behind the other. -/
def Arg.spellingsAll : List Arg → Language Piece
  | [] => 1
  | a :: as => a.spellings * spellingsAll as

/-- The pieces of a subtype, if there is one. -/
def subtypePieces (subtype : Option Name) : List Piece :=
  match subtype with
  | none => []
  | some name => [.lexeme .slash ['/'], name.piece]

/-- The pieces of a quantifier and captures. -/
def suffixPieces (mark : Option Repeat) (captures : List CaptureName) : List Piece :=
  mark.toList.map Repeat.piece ++ captures.map CaptureName.piece

/-- `(` -/
def openParen : Piece := .lexeme .parenOpen ['(']

/-- `)` -/
def closeParen : Piece := .lexeme .parenClose [')']

/-- `[` -/
def openBracket : Piece := .lexeme .bracketOpen ['[']

/-- `]` -/
def closeBracket : Piece := .lexeme .bracketClose [']']

mutual

/-- The ways to write an atom. -/
def Atom.spellings : Atom → Language Piece
  | .tree label subtype members =>
    {openParen :: Label.piece label :: subtypePieces subtype} * Member.spellingsAll members *
      {[closeParen]}
  | .group members => {[openParen]} * Member.spellingsAll members * {[closeParen]}
  | .alternation branches => {[openBracket]} * Item.spellingsAll branches * {[closeBracket]}
  | .str value => literals value
  | .wildcard => {[.lexeme .underscore ['_']]}
  | .anchor => {[.lexeme .dot ['.']]}
  | .negatedField name => {[.lexeme .bang ['!'], name.piece]}

/-- The ways to write a pattern. -/
def Item.spellings : Item → Language Piece
  | .plain atom mark captures => atom.spellings * {suffixPieces mark captures}
  | .field name value => {[name.piece, .lexeme .colon [':']]} * value.spellings

/-- The ways to write patterns one behind the other. -/
def Item.spellingsAll : List Item → Language Piece
  | [] => 1
  | i :: is => i.spellings * Item.spellingsAll is

/-- The ways to write a member. -/
def Member.spellings : Member → Language Piece
  | .item i => i.spellings
  | .predicate name args => {[openParen, name.piece]} * Arg.spellingsAll args * {[closeParen]}

/-- The ways to write members one behind the other. -/
def Member.spellingsAll : List Member → Language Piece
  | [] => 1
  | m :: ms => m.spellings * Member.spellingsAll ms

end

end Concord.Query.Abstract
