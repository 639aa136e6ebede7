import Concord.Text.Span

/-!
# Tokens of a grammar script

A grammar is defined by a script.  Of its text only the nesting of delimiters and the names in it
matter here, so the tokens are delimiters, names, literals and a few marks; everything that merely
computes is an operator.
-/

set_option autoImplicit false

namespace Concord.Script

/-- The kinds of delimiters. -/
inductive Delimiter where
  | paren | brace | bracket
deriving DecidableEq, Repr, Inhabited

/-- The character that opens. -/
def Delimiter.opener : Delimiter → Char
  | paren => '('
  | brace => '\x7b'
  | bracket => '['

/-- The character that closes. -/
def Delimiter.closer : Delimiter → Char
  | paren => ')'
  | brace => '\x7d'
  | bracket => ']'

/-- What a lexeme is. -/
inductive TokenKind where
  | opening (d : Delimiter)
  | closing (d : Delimiter)
  | comma | colon | semicolon | dot | spread | arrow | slash | operator
  | ident | number | string | template | regex
  | blank | newline | lineComment | blockComment
  | garbage
deriving DecidableEq, Repr, Inhabited

/-- Blanks, line breaks and comments, which separate tokens and mean nothing. -/
def TokenKind.isTrivia : TokenKind → Bool
  | blank | newline | lineComment | blockComment => true
  | _ => false

/-- A kind and the characters it covers. -/
structure Lexeme where
  kind : TokenKind
  text : List Char
deriving DecidableEq, Repr, Inhabited

/-- A lexeme at its place in a text. -/
structure Token extends Lexeme where
  start : Nat
deriving DecidableEq, Repr, Inhabited

/-- The stretch of text that the token covers. -/
def Token.span (t : Token) : Span := ⟨t.start, t.start + utf8Length t.text⟩

/-- Puts lexemes one behind the other, the first one at byte `start`. -/
def Token.placeAll (start : Nat) : List Lexeme → List Token
  | [] => []
  | l :: ls => ⟨l, start⟩ :: placeAll (start + utf8Length l.text) ls

@[simp] theorem Token.map_toLexeme_placeAll (start : Nat) (ls : List Lexeme) :
    (Token.placeAll start ls).map Token.toLexeme = ls := by
  induction ls generalizing start with
  | nil => rfl
  | cons l ls ih => simp [placeAll, ih]

end Concord.Script
