import Concord.Script.Token
import Concord.Text.Literal

/-!
# Cutting a grammar script into tokens

`scan` cuts a text into lexemes by the longest match, blanks and comments among them, and loses
nothing (`flatMap_text_scan`); `tokenize` puts them at their places and leaves out the trivia.

A slash begins a regular expression literal where an expression can begin, which the token before
it decides, provided that the literal is closed on its line.  Anywhere else it divides.

What no kind of token matches is garbage: a character that begins no token, or an unclosed literal
as far as it could still have been closed.  Garbage that stands side by side is one lexeme.
-/

set_option autoImplicit false

namespace Concord.Script

/-! ## Character classes -/

/-- A character of an operator. -/
def isOperatorChar (c : Char) : Bool :=
  c == '=' || c == '!' || c == '&' || c == '|' || c == '?' || c == '+' || c == '-' || c == '*' ||
    c == '%' || c == '<' || c == '>' || c == '~' || c == '^'

/-- What a name begins with. -/
def isIdentStart (c : Char) : Bool := c.isAlpha || c == '_' || c == '$'

/-- What a name goes on with. -/
def isIdentPart (c : Char) : Bool := c.isAlphanum || c == '_' || c == '$'

/-- What a number goes on with. -/
def isNumberPart (c : Char) : Bool := c.isAlphanum || c == '_' || c == '.'

/-- Blanks within a line. -/
def isBlank (c : Char) : Bool := c == ' ' || c == '\t' || c == '\r'

/-! ## Regular expression literals -/

/-- The body of a regular expression literal behind its slash, the closing slash included, and what
comes after.  A slash within brackets or behind a backslash does not close it, and it may not span
lines. -/
def regexBody (inClass escaped : Bool) : List Char → Option (List Char × List Char)
  | [] => none
  | c :: cs =>
    let go (inClass escaped : Bool) := (regexBody inClass escaped cs).map
      fun (body, rest) ↦ (c :: body, rest)
    if c = '\n' then none
    else if escaped then go inClass false
    else if c = '\\' then go inClass true
    else if c = '[' then go true false
    else if c = ']' then go false false
    else if c = '/' ∧ !inClass then some ([c], cs)
    else go inClass false

/-- A regular expression literal behind its slash, its flags included, and what comes after. -/
def regexRest (cs : List Char) : Option (List Char × List Char) :=
  (regexBody false false cs).map fun (body, rest) ↦
    (body ++ rest.takeWhile Char.isAlpha, rest.dropWhile Char.isAlpha)

/-- Whether an expression can begin behind a token, so that a slash does not divide. -/
def allowsRegex : Option Lexeme → Bool
  | none => true
  | some l => match l.kind with
    | .opening _ | .closing .brace | .comma | .colon | .semicolon | .arrow | .operator
    | .spread => true
    | .ident => l.text == "return".toList || l.text == "typeof".toList || l.text == "case".toList
    | _ => false

/-! ## One step of the lexer -/

/-- The body of a block comment up to and with its closing mark, and what comes after. -/
def blockBody : List Char → Option (List Char × List Char)
  | [] => none
  | c :: cs =>
    if c = '*' ∧ cs.head? = some '/' then some (['*', '/'], cs.tail)
    else (blockBody cs).map fun (body, rest) ↦ (c :: body, rest)

/-- A lexeme that begins with the characters `front`, which the longest run of `p` follows. -/
def takeRun (kind : TokenKind) (front : List Char) (p : Char → Bool) (cs : List Char) :
    Lexeme × List Char :=
  (⟨kind, front ++ cs.takeWhile p⟩, cs.dropWhile p)

/-- A quoted literal behind its opening quote, or all of it that could still have become one. -/
def takeLiteral (kind : TokenKind) (quote : Char) (multiline : Bool) (cs : List Char) :
    Lexeme × List Char :=
  match literalBody quote multiline cs with
  | (body, true, rest) => (⟨kind, quote :: (body ++ [quote])⟩, rest)
  | (body, false, rest) => (⟨.garbage, quote :: body⟩, rest)

/-- A slash that divides or begins a regular expression literal. -/
def takeSlash (previous : Option Lexeme) (cs : List Char) : Lexeme × List Char :=
  if allowsRegex previous then
    match regexRest cs with
    | some (body, rest) => (⟨.regex, '/' :: body⟩, rest)
    | none => (⟨.slash, ['/']⟩, cs)
  else (⟨.slash, ['/']⟩, cs)

/-- What begins with a slash: a comment, a regular expression literal or a division. -/
def takeSlashed (previous : Option Lexeme) (cs : List Char) : Lexeme × List Char :=
  if cs.head? = some '/' then takeRun .lineComment ['/'] (· != '\n') cs
  else if cs.head? = some '*' then
    match blockBody cs.tail with
    | some (body, rest) => (⟨.blockComment, '/' :: '*' :: body⟩, rest)
    | none => takeSlash previous cs
  else takeSlash previous cs

/-- What begins with a dot. -/
def takeDots (cs : List Char) : Lexeme × List Char :=
  if cs.take 2 = ['.', '.'] then (⟨.spread, ['.', '.', '.']⟩, cs.drop 2) else (⟨.dot, ['.']⟩, cs)

/-- An operator that begins with `c`, or an arrow. -/
def takeOperator (c : Char) (cs : List Char) : Lexeme × List Char :=
  let text := c :: cs.takeWhile isOperatorChar
  (⟨if text = ['=', '>'] then .arrow else .operator, text⟩, cs.dropWhile isOperatorChar)

/-- The longest match at the front of a text that begins with `c`, behind the significant lexeme
`previous`. -/
def step (previous : Option Lexeme) (c : Char) (cs : List Char) : Lexeme × List Char :=
  match c with
  | '(' => (⟨.opening .paren, [c]⟩, cs)
  | ')' => (⟨.closing .paren, [c]⟩, cs)
  | '\x7b' => (⟨.opening .brace, [c]⟩, cs)
  | '\x7d' => (⟨.closing .brace, [c]⟩, cs)
  | '[' => (⟨.opening .bracket, [c]⟩, cs)
  | ']' => (⟨.closing .bracket, [c]⟩, cs)
  | ',' => (⟨.comma, [c]⟩, cs)
  | ':' => (⟨.colon, [c]⟩, cs)
  | ';' => (⟨.semicolon, [c]⟩, cs)
  | '\n' => (⟨.newline, [c]⟩, cs)
  | '.' => takeDots cs
  | '/' => takeSlashed previous cs
  | '"' => takeLiteral .string '"' false cs
  | '\x27' => takeLiteral .string '\x27' false cs
  | '\x60' => takeLiteral .template '\x60' true cs
  | c =>
    if isOperatorChar c then takeOperator c cs
    else if isIdentStart c then takeRun .ident [c] isIdentPart cs
    else if c.isDigit then takeRun .number [c] isNumberPart cs
    else if isBlank c then takeRun .blank [c] isBlank cs
    else (⟨.garbage, [c]⟩, cs)

/-! ### A step loses nothing -/

theorem regexBody_append {inClass escaped : Bool} {cs body rest : List Char}
    (h : regexBody inClass escaped cs = some (body, rest)) : body ++ rest = cs := by
  induction cs generalizing inClass escaped body rest with
  | nil => simp [regexBody] at h
  | cons c cs ih =>
    have key : ∀ a b, (regexBody a b cs).map (fun p ↦ (c :: p.1, p.2)) = some (body, rest) →
        body ++ rest = c :: cs := by
      intro a b h
      obtain ⟨p, hp, he⟩ := Option.map_eq_some_iff.1 h
      cases he
      rw [List.cons_append, ih hp]
    simp only [regexBody] at h
    repeat' split at h
    all_goals first
      | exact key _ _ h
      | simp at h
    obtain ⟨rfl, rfl⟩ := h
    rfl

theorem regexRest_append {cs body rest : List Char} (h : regexRest cs = some (body, rest)) :
    body ++ rest = cs := by
  obtain ⟨p, hp, he⟩ := Option.map_eq_some_iff.1 h
  cases he
  rw [List.append_assoc, List.takeWhile_append_dropWhile, regexBody_append hp]

theorem blockBody_append {cs body rest : List Char} (h : blockBody cs = some (body, rest)) :
    body ++ rest = cs := by
  induction cs generalizing body rest with
  | nil => simp [blockBody] at h
  | cons c cs ih =>
    rw [blockBody] at h
    split at h
    · rename_i hc
      cases cs with
      | nil => simp at hc
      | cons d ds => simp at hc h; simp [hc, ← h]
    · obtain ⟨p, hp, he⟩ := Option.map_eq_some_iff.1 h
      cases he
      rw [List.cons_append, ih hp]

theorem takeRun_append (kind : TokenKind) (front : List Char) (p : Char → Bool)
    (cs : List Char) :
    (takeRun kind front p cs).1.text ++ (takeRun kind front p cs).2 = front ++ cs := by
  simp [takeRun]

theorem takeLiteral_append (kind : TokenKind) (quote : Char) (multiline : Bool)
    (cs : List Char) :
    (takeLiteral kind quote multiline cs).1.text ++ (takeLiteral kind quote multiline cs).2
      = quote :: cs := by
  have h := literalBody_append quote multiline cs
  rw [takeLiteral]
  split <;> rename_i heq <;> simp [heq] at h <;> simp [h]

theorem takeSlash_append (previous : Option Lexeme) (cs : List Char) :
    (takeSlash previous cs).1.text ++ (takeSlash previous cs).2 = '/' :: cs := by
  rw [takeSlash]
  split
  · split
    · rename_i h; simp [regexRest_append h]
    · rfl
  · rfl

theorem takeSlashed_append (previous : Option Lexeme) (cs : List Char) :
    (takeSlashed previous cs).1.text ++ (takeSlashed previous cs).2 = '/' :: cs := by
  rw [takeSlashed]
  split
  · exact takeRun_append _ _ _ _
  · split
    · rename_i hc
      split
      · rename_i h
        cases cs with
        | nil => simp at hc
        | cons d ds => simp at hc h; simp [blockBody_append h, hc]
      · exact takeSlash_append _ _
    · exact takeSlash_append _ _

theorem takeDots_append (cs : List Char) :
    (takeDots cs).1.text ++ (takeDots cs).2 = '.' :: cs := by
  rw [takeDots]
  split
  · rename_i h
    have := List.take_append_drop 2 cs
    rw [h] at this
    simpa using this
  · rfl

theorem takeOperator_append (c : Char) (cs : List Char) :
    (takeOperator c cs).1.text ++ (takeOperator c cs).2 = c :: cs := by
  simp [takeOperator]

theorem step_append (previous : Option Lexeme) (c : Char) (cs : List Char) :
    (step previous c cs).1.text ++ (step previous c cs).2 = c :: cs := by
  unfold step
  split
  all_goals first
    | rfl
    | exact takeDots_append _
    | exact takeSlashed_append _ _
    | exact takeLiteral_append _ _ _ _
    | skip
  repeat' split
  all_goals first
    | exact takeOperator_append _ _
    | exact takeRun_append _ _ _ _
    | rfl

theorem takeSlash_text_ne_nil (previous : Option Lexeme) (cs : List Char) :
    (takeSlash previous cs).1.text ≠ [] := by
  rw [takeSlash]
  repeat' split
  all_goals exact List.cons_ne_nil _ _

theorem step_text_ne_nil (previous : Option Lexeme) (c : Char) (cs : List Char) :
    (step previous c cs).1.text ≠ [] := by
  unfold step
  split
  all_goals first
    | exact List.cons_ne_nil _ _
    | skip
  · rw [takeDots]; split <;> exact List.cons_ne_nil _ _
  · rw [takeSlashed]
    repeat' split
    all_goals first
      | exact takeSlash_text_ne_nil _ _
      | exact List.cons_ne_nil _ _
  · rw [takeLiteral]; split <;> exact List.cons_ne_nil _ _
  · rw [takeLiteral]; split <;> exact List.cons_ne_nil _ _
  · rw [takeLiteral]; split <;> exact List.cons_ne_nil _ _
  · repeat' split
    all_goals exact List.cons_ne_nil _ _

theorem length_step_lt (previous : Option Lexeme) (c : Char) (cs : List Char) :
    (step previous c cs).2.length < (c :: cs).length := by
  have h := congrArg List.length (step_append previous c cs)
  have h0 := List.length_pos_iff.mpr (step_text_ne_nil previous c cs)
  rw [List.length_append] at h
  omega

/-! ## A whole text -/

/-- The lexeme that decides what a slash is, after one more lexeme. -/
def previousAfter (previous : Option Lexeme) (l : Lexeme) : Option Lexeme :=
  if l.kind.isTrivia then previous else some l

/-- The lexemes of a text behind the significant lexeme `previous`; garbage is not joined. -/
def pieces (previous : Option Lexeme) : List Char → List Lexeme
  | [] => []
  | c :: cs =>
    (step previous c cs).1 ::
      pieces (previousAfter previous (step previous c cs).1) (step previous c cs).2
termination_by cs => cs.length
decreasing_by exact length_step_lt previous c cs

/-- Joins garbage that stands side by side. -/
def joinGarbage : List Lexeme → List Lexeme
  | [] => []
  | l :: ls =>
    match joinGarbage ls with
    | [] => [l]
    | m :: ms =>
      if l.kind = .garbage ∧ m.kind = .garbage then ⟨.garbage, l.text ++ m.text⟩ :: ms
      else l :: m :: ms

/-- Cuts a text into lexemes. -/
def scan (source : List Char) : List Lexeme := joinGarbage (pieces none source)

/-- The significant tokens of a text. -/
def tokenize (source : String) : List Token :=
  (Token.placeAll 0 (scan source.toList)).filter (!·.kind.isTrivia)

/-! ### A text is the sum of its lexemes -/

theorem flatMap_text_pieces (previous : Option Lexeme) (cs : List Char) :
    (pieces previous cs).flatMap Lexeme.text = cs := by
  fun_induction pieces previous cs with
  | case1 => rfl
  | case2 previous c cs ih => rw [List.flatMap_cons, ih, step_append]

theorem flatMap_text_joinGarbage (ls : List Lexeme) :
    (joinGarbage ls).flatMap Lexeme.text = ls.flatMap Lexeme.text := by
  induction ls with
  | nil => rfl
  | cons l ls ih =>
    rw [List.flatMap_cons, ← ih, joinGarbage]
    split
    · rename_i h; simp [h]
    · rename_i h; rw [h]; split <;> simp

/-- **Nothing is lost**: the texts of the lexemes join up to the source. -/
theorem flatMap_text_scan (cs : List Char) : (scan cs).flatMap Lexeme.text = cs := by
  rw [scan, flatMap_text_joinGarbage, flatMap_text_pieces]

end Concord.Script
