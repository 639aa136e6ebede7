import Concord.Text.Span

/-!
# Tokens of a highlight query

A query text is a sequence of lexemes: a kind and the characters that it covers.  A `Token` is a
lexeme at its place, and `Token.placeAll` puts lexemes one behind the other, so that the tokens of
a text tile it.
-/

set_option autoImplicit false

namespace Concord.Query

/-- What a lexeme is. -/
inductive TokenKind where
  | parenOpen | parenClose | bracketOpen | bracketClose
  | colon | bang | underscore | dot | star | plus | question | slash
  | quote | strVal
  | captureName | predicateName | ident
  | blank | newline | comment
  | garbage
deriving DecidableEq, Repr, Inhabited

namespace TokenKind

/-- Blanks, line breaks and comments, which separate tokens and mean nothing. -/
def isTrivia : TokenKind → Bool
  | blank | newline | comment => true
  | _ => false

/-- The kinds that a pattern can begin with. -/
def startsPattern : TokenKind → Bool
  | parenOpen | bracketOpen | underscore | ident | quote | dot | bang => true
  | _ => false

/-- The repetition marks `*`, `+` and `?`. -/
def isQuantifier : TokenKind → Bool
  | star | plus | question => true
  | _ => false

/-- The name under which a dump of the tree shows the kind. -/
def label : TokenKind → String
  | parenOpen => "ParenOpen"
  | parenClose => "ParenClose"
  | bracketOpen => "BracketOpen"
  | bracketClose => "BracketClose"
  | colon => "Colon"
  | bang => "Negation"
  | underscore => "Underscore"
  | dot => "Dot"
  | star => "Star"
  | plus => "Plus"
  | question => "Question"
  | slash => "Slash"
  | quote => "DoubleQuote"
  | strVal => "StrVal"
  | captureName => "CaptureName"
  | predicateName => "PredicateName"
  | ident => "Id"
  | blank => "Whitespace"
  | newline => "Newline"
  | comment => "LineComment"
  | garbage => "Garbage"

end TokenKind

/-- A kind and the characters it covers. -/
structure Lexeme where
  kind : TokenKind
  text : List Char
deriving DecidableEq, Repr, Inhabited

/-- A lexeme at its place in a text. -/
structure Token extends Lexeme where
  start : Nat
deriving DecidableEq, Repr, Inhabited

/-- The stretch of text that the token covers. -/
def Token.span (t : Token) : Span := ⟨t.start, t.start + utf8Length t.text⟩

/-- Puts lexemes one behind the other, the first one at byte `start`. -/
def Token.placeAll (start : Nat) : List Lexeme → List Token
  | [] => []
  | l :: ls => ⟨l, start⟩ :: placeAll (start + utf8Length l.text) ls

@[simp] theorem Token.map_toLexeme_placeAll (start : Nat) (ls : List Lexeme) :
    (Token.placeAll start ls).map Token.toLexeme = ls := by
  induction ls generalizing start with
  | nil => rfl
  | cons l ls ih => simp [placeAll, ih]

end Concord.Query
