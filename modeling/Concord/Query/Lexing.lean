import Concord.Query.Token
import Concord.Text.Literal

/-!
# Cutting a query text into tokens

`scan` cuts a text into lexemes by the longest match, and loses nothing: the texts of the lexemes
join up to the source (`flatMap_text_scan`).  `tokenize` puts them at their places.

What no kind of token matches becomes *garbage*.  A character that begins no token is garbage by
itself; an unclosed string literal is garbage from its quote up to the end of the text, or up to
a line break that follows a backslash, because a backslash escapes any character but that one.
Garbage that stands side by side is one lexeme.

A string literal comes out in up to three lexemes: a quote, the characters between, if there are
any, and a quote.
-/

set_option autoImplicit false

namespace Concord.Query

/-! ## Character classes -/

/-- A letter of ASCII or an underscore: what a capture or predicate name begins with. -/
def isNameStart (c : Char) : Bool := c.isAlpha || c == '_'

/-- What a node type, a field name or a bare argument begins with. -/
def isIdentStart (c : Char) : Bool := c.isAlphanum || c == '_'

/-- What an identifier or a capture name goes on with. -/
def isIdentPart (c : Char) : Bool := c.isAlphanum || c == '_' || c == '.' || c == '-'

/-- What a predicate name goes on with, before its closing mark. -/
def isPredicatePart (c : Char) : Bool := c.isAlphanum || c == '_' || c == '-'

/-- Blanks within a line. -/
def isBlank (c : Char) : Bool := c == ' ' || c == '\t' || c == '\r'

/-! ## One step of the lexer -/

/-- What one step takes off the front of a text. -/
inductive Piece where
  /-- A lexeme of its own. -/
  | lexeme (kind : TokenKind) (text : List Char)
  /-- A closed string literal with the characters between its quotes. -/
  | literal (body : List Char)
  /-- Characters that begin no token. -/
  | unmatched (text : List Char)
deriving DecidableEq, Repr

/-- The characters that the piece covers. -/
def Piece.text : Piece → List Char
  | .lexeme _ text => text
  | .literal body => '"' :: (body ++ ['"'])
  | .unmatched text => text

/-- A lexeme whose first character `c` is followed by the longest run of `p`. -/
def takeRun (kind : TokenKind) (c : Char) (p : Char → Bool) (cs : List Char) :
    Piece × List Char :=
  (.lexeme kind (c :: cs.takeWhile p), cs.dropWhile p)

/-- A name behind the marker `@`, or the marker alone as unmatched text. -/
def takeCaptureName : List Char → Piece × List Char
  | [] => (.unmatched ['@'], [])
  | d :: ds =>
    if isNameStart d then
      (.lexeme .captureName ('@' :: d :: ds.takeWhile isIdentPart), ds.dropWhile isIdentPart)
    else (.unmatched ['@'], d :: ds)

/-- The mark `?` or `!` that may close a predicate name, apart from what comes after. -/
def splitMark : List Char → List Char × List Char
  | [] => ([], [])
  | c :: cs => if c = '?' ∨ c = '!' then ([c], cs) else ([], c :: cs)

/-- A name behind the marker `#`, with one closing `?` or `!` if there is one, or the marker alone
as unmatched text. -/
def takePredicateName : List Char → Piece × List Char
  | [] => (.unmatched ['#'], [])
  | d :: ds =>
    if isNameStart d then
      let (mark, rest) := splitMark (ds.dropWhile isPredicatePart)
      (.lexeme .predicateName ('#' :: d :: (ds.takeWhile isPredicatePart ++ mark)), rest)
    else (.unmatched ['#'], d :: ds)

/-- A string literal behind its opening quote, or all of it that could still have become one. -/
def takeLiteral (cs : List Char) : Piece × List Char :=
  match literalBody '"' true cs with
  | (body, true, rest) => (.literal body, rest)
  | (body, false, rest) => (.unmatched ('"' :: body), rest)

/-- An identifier that begins with `c`; a lone underscore is a kind of its own. -/
def takeIdent (c : Char) (cs : List Char) : Piece × List Char :=
  let text := c :: cs.takeWhile isIdentPart
  (.lexeme (if text = ['_'] then .underscore else .ident) text, cs.dropWhile isIdentPart)

/-- The longest match at the front of a text that begins with `c`. -/
def step (c : Char) (cs : List Char) : Piece × List Char :=
  match c with
  | '(' => (.lexeme .parenOpen ['('], cs)
  | ')' => (.lexeme .parenClose [')'], cs)
  | '[' => (.lexeme .bracketOpen ['['], cs)
  | ']' => (.lexeme .bracketClose [']'], cs)
  | ':' => (.lexeme .colon [':'], cs)
  | '!' => (.lexeme .bang ['!'], cs)
  | '.' => (.lexeme .dot ['.'], cs)
  | '*' => (.lexeme .star ['*'], cs)
  | '+' => (.lexeme .plus ['+'], cs)
  | '?' => (.lexeme .question ['?'], cs)
  | '/' => (.lexeme .slash ['/'], cs)
  | '\n' => (.lexeme .newline ['\n'], cs)
  | ';' => takeRun .comment ';' (· != '\n') cs
  | '"' => takeLiteral cs
  | '@' => takeCaptureName cs
  | '#' => takePredicateName cs
  | c =>
    if isBlank c then takeRun .blank c isBlank cs
    else if isIdentStart c then takeIdent c cs
    else (.unmatched [c], cs)

/-! ### A step loses nothing -/

theorem takeRun_append (kind : TokenKind) (c : Char) (p : Char → Bool) (cs : List Char) :
    (takeRun kind c p cs).1.text ++ (takeRun kind c p cs).2 = c :: cs := by
  simp [takeRun, Piece.text]

theorem takeCaptureName_append (cs : List Char) :
    (takeCaptureName cs).1.text ++ (takeCaptureName cs).2 = '@' :: cs := by
  cases cs with
  | nil => rfl
  | cons d ds => rw [takeCaptureName]; split <;> simp [Piece.text]

theorem splitMark_append (cs : List Char) : (splitMark cs).1 ++ (splitMark cs).2 = cs := by
  cases cs with
  | nil => rfl
  | cons c cs => rw [splitMark]; split <;> rfl

theorem takePredicateName_append (cs : List Char) :
    (takePredicateName cs).1.text ++ (takePredicateName cs).2 = '#' :: cs := by
  cases cs with
  | nil => rfl
  | cons d ds =>
    rw [takePredicateName]
    split
    · simp [Piece.text, splitMark_append]
    · simp [Piece.text]

theorem takeLiteral_append (cs : List Char) :
    (takeLiteral cs).1.text ++ (takeLiteral cs).2 = '"' :: cs := by
  have h := literalBody_append '"' true cs
  rw [takeLiteral]
  split <;> rename_i heq <;> simp [heq] at h <;> simp [Piece.text, h]

theorem takeIdent_append (c : Char) (cs : List Char) :
    (takeIdent c cs).1.text ++ (takeIdent c cs).2 = c :: cs := by
  simp [takeIdent, Piece.text]

theorem step_append (c : Char) (cs : List Char) :
    (step c cs).1.text ++ (step c cs).2 = c :: cs := by
  unfold step
  split
  all_goals first
    | rfl
    | exact takeRun_append _ _ _ _
    | exact takeLiteral_append _
    | exact takeCaptureName_append _
    | exact takePredicateName_append _
    | skip
  split
  · exact takeRun_append _ _ _ _
  · split
    · exact takeIdent_append _ _
    · rfl

theorem step_text_ne_nil (c : Char) (cs : List Char) : (step c cs).1.text ≠ [] := by
  unfold step
  split
  all_goals first
    | exact List.cons_ne_nil _ _
    | skip
  · rw [takeLiteral]; split <;> exact List.cons_ne_nil _ _
  · cases cs with
    | nil => exact List.cons_ne_nil _ _
    | cons d ds => rw [takeCaptureName]; split <;> exact List.cons_ne_nil _ _
  · cases cs with
    | nil => exact List.cons_ne_nil _ _
    | cons d ds => rw [takePredicateName]; split <;> exact List.cons_ne_nil _ _
  · split
    · exact List.cons_ne_nil _ _
    · split <;> exact List.cons_ne_nil _ _

theorem length_step_lt (c : Char) (cs : List Char) :
    (step c cs).2.length < (c :: cs).length := by
  have h := congrArg List.length (step_append c cs)
  have h0 := List.length_pos_iff.mpr (step_text_ne_nil c cs)
  rw [List.length_append] at h
  omega

/-! ## A whole text -/

/-- The pieces of a text, in order. -/
def pieces : List Char → List Piece
  | [] => []
  | c :: cs => (step c cs).1 :: pieces (step c cs).2
termination_by cs => cs.length
decreasing_by exact length_step_lt c cs

/-- Joins pieces of unmatched text that stand side by side. -/
def joinUnmatched : List Piece → List Piece
  | [] => []
  | .unmatched a :: ps =>
    match joinUnmatched ps with
    | .unmatched b :: qs => .unmatched (a ++ b) :: qs
    | qs => .unmatched a :: qs
  | p :: ps => p :: joinUnmatched ps

/-- The lexemes that a piece stands for. -/
def Piece.lexemes : Piece → List Lexeme
  | .lexeme kind text => [⟨kind, text⟩]
  | .literal [] => [⟨.quote, ['"']⟩, ⟨.quote, ['"']⟩]
  | .literal body => [⟨.quote, ['"']⟩, ⟨.strVal, body⟩, ⟨.quote, ['"']⟩]
  | .unmatched text => [⟨.garbage, text⟩]

/-- Cuts a text into lexemes. -/
def scan (source : List Char) : List Lexeme :=
  (joinUnmatched (pieces source)).flatMap Piece.lexemes

/-- The tokens of a text, blanks and comments among them. -/
def tokenize (source : String) : List Token :=
  Token.placeAll 0 (scan source.toList)

/-! ### A text is the sum of its lexemes -/

theorem flatMap_text_pieces (cs : List Char) : (pieces cs).flatMap Piece.text = cs := by
  fun_induction pieces cs with
  | case1 => rfl
  | case2 c cs ih => rw [List.flatMap_cons, ih, step_append]

theorem flatMap_text_joinUnmatched (ps : List Piece) :
    (joinUnmatched ps).flatMap Piece.text = ps.flatMap Piece.text := by
  fun_induction joinUnmatched ps with
  | case1 => rfl
  | case2 a ps b qs h ih => simp [h] at ih; simp [Piece.text, ← ih]
  | case3 a ps _ ih => simp [ih]
  | case4 p ps h ih => simp [ih]

theorem flatMap_text_lexemes (p : Piece) : p.lexemes.flatMap Lexeme.text = p.text := by
  cases p with
  | lexeme kind text => simp [Piece.lexemes, Piece.text]
  | literal body => cases body <;> simp [Piece.lexemes, Piece.text]
  | unmatched text => simp [Piece.lexemes, Piece.text]

/-- **Nothing is lost**: the texts of the lexemes join up to the source. -/
theorem flatMap_text_scan (cs : List Char) : (scan cs).flatMap Lexeme.text = cs := by
  have h : ∀ ps : List Piece,
      (ps.flatMap Piece.lexemes).flatMap Lexeme.text = ps.flatMap Piece.text := by
    intro ps
    induction ps with
    | nil => rfl
    | cons p ps ih => simp [flatMap_text_lexemes, ih]
  rw [scan, h, flatMap_text_joinUnmatched, flatMap_text_pieces]

end Concord.Query
