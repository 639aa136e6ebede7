import Concord.Proofs.Run
import Concord.Proofs.Spelling
import Concord.Script.Lexing

/-!
# Cutting written scripts

A script is written from lexemes with blanks and line breaks around them.  `tokenize_of_writes` says
that it is cut into these lexemes again, if each is one that the lexer cuts wherever it stands
(`Standalone`).  Names, numbers, quoted literals and the marks of a grammar script are such lexemes.
-/

set_option autoImplicit false

namespace Concord.Script

/-! ## Lexemes that stand alone -/

namespace Lexeme

/-- Whether the lexeme goes on with a character. -/
def absorbs (l : Lexeme) (c : Char) : Bool :=
  match l.kind with
  | .ident => isIdentPart c
  | .number => isNumberPart c
  | .operator | .arrow => isOperatorChar c
  | .dot => c == '.'
  | _ => false

/-- The lexer cuts the lexeme off the front of a text, whatever stands before it, and it is
significant. -/
structure Standalone (l : Lexeme) : Prop where
  step_eq : ∀ previous rest, (∀ c ∈ rest.head?, l.absorbs c = false) →
    ∃ c cs, l.text = c :: cs ∧ step previous c (cs ++ rest) = (l, rest)
  significant : l.kind.isTrivia = false
  matched : l.kind ≠ .garbage

end Lexeme

/-- How a script is written. -/
def spelling : Spelling Lexeme := ⟨Lexeme.text, Lexeme.absorbs, fun c ↦ isBlank c || c == '\n'⟩

/-! ## Cutting -/

/-- All of the text is matched by tokens, and these are the significant ones. -/
structure Cuts (previous : Option Lexeme) (cs : List Char) (ls : List Lexeme) : Prop where
  matched : ∀ l ∈ pieces previous cs, l.kind ≠ .garbage
  significant : (pieces previous cs).filter (!·.kind.isTrivia) = ls

section Cuts

variable {previous : Option Lexeme} {cs : List Char} {ls : List Lexeme}

theorem cuts_nil (previous : Option Lexeme) : Cuts previous [] [] := by
  constructor
  · simp [pieces]
  · rw [pieces, List.filter_nil]

/-- A lexeme of trivia adds nothing. -/
theorem Cuts.trivia {rest : List Char} {l : Lexeme} (h : Cuts previous rest ls)
    (hl : l.kind.isTrivia = true) (hpieces : pieces previous cs = l :: pieces previous rest) :
    Cuts previous cs ls := by
  constructor
  · intro m hm
    rw [hpieces] at hm
    rcases List.mem_cons.mp hm with rfl | hm
    · rintro heq
      rw [heq] at hl
      contradiction
    · exact h.matched m hm
  · rw [hpieces, List.filter_cons_of_neg (by simp [hl])]
    exact h.significant

theorem pieces_newline (previous : Option Lexeme) (cs : List Char) :
    pieces previous ('\n' :: cs) = ⟨.newline, ['\n']⟩ :: pieces previous cs := by
  rw [pieces]
  rfl

theorem pieces_blank {c : Char} (hc : isBlank c = true) (previous : Option Lexeme)
    (cs : List Char) :
    pieces previous (c :: cs) =
      ⟨.blank, c :: cs.takeWhile isBlank⟩ :: pieces previous (cs.dropWhile isBlank) := by
  have hstep : step previous c cs = takeRun .blank [c] isBlank cs := by
    simp only [isBlank, Bool.or_eq_true, beq_iff_eq] at hc
    obtain (rfl | rfl) | rfl := hc <;> rfl
  rw [pieces, hstep]
  rfl

/-- A blank in front of a text is joined to those that follow it. -/
theorem Cuts.blank (h : Cuts previous cs ls) {c : Char} (hc : isBlank c = true) :
    Cuts previous (c :: cs) ls := by
  have hdrop : Cuts previous (cs.dropWhile isBlank) ls := by
    cases cs with
    | nil => exact h
    | cons d cs =>
      by_cases hd : isBlank d = true
      · have hpieces := pieces_blank hd previous cs
        rw [List.dropWhile_cons_of_pos hd]
        constructor
        · exact fun m hm ↦ h.matched m (by rw [hpieces]; exact List.mem_cons_of_mem _ hm)
        · rw [← h.significant, hpieces, List.filter_cons_of_neg]
          simp [TokenKind.isTrivia]
      · rwa [List.dropWhile_cons_of_neg hd]
  exact hdrop.trivia rfl (pieces_blank hc previous cs)

/-- A lexeme that stands alone is cut off the front of a text. -/
theorem Cuts.cons {l : Lexeme} (hl : l.Standalone) (h : ∀ previous, Cuts previous cs ls)
    (hnext : ∀ c ∈ cs.head?, l.absorbs c = false) : Cuts previous (l.text ++ cs) (l :: ls) := by
  obtain ⟨c, cs', htext, hstep⟩ := hl.step_eq previous cs hnext
  have hpieces : pieces previous (l.text ++ cs) = l :: pieces (previousAfter previous l) cs := by
    rw [htext, List.cons_append, pieces, hstep]
  constructor
  · intro m hm
    rw [hpieces] at hm
    rcases List.mem_cons.mp hm with rfl | hm
    · exact hl.matched
    · exact (h _).matched m hm
  · rw [hpieces, List.filter_cons_of_pos (by simp [hl.significant]), (h _).significant]

/-- **A text that is written from lexemes is cut into them.** -/
theorem cuts_of_writes (h : spelling.Writes ls cs) (hls : ∀ l ∈ ls, l.Standalone)
    (previous : Option Lexeme) : Cuts previous cs ls := by
  induction h generalizing previous with
  | nil => exact cuts_nil previous
  | @blank c ls cs hc _ ih =>
    have hc : isBlank c = true ∨ c = '\n' := by simpa [spelling] using hc
    rcases hc with hc | rfl
    · exact (ih hls previous).blank hc
    · exact (ih hls previous).trivia rfl (pieces_newline previous cs)
  | @cons l ls cs hnext _ ih =>
    obtain ⟨hl, hls⟩ := List.forall_mem_cons.mp hls
    exact .cons hl (ih hls) hnext

end Cuts

theorem joinGarbage_eq_self {ls : List Lexeme} (h : ∀ l ∈ ls, l.kind ≠ .garbage) :
    joinGarbage ls = ls := by
  induction ls with
  | nil => rfl
  | cons l ls ih =>
    obtain ⟨hl, h⟩ := List.forall_mem_cons.mp h
    rw [joinGarbage, ih h]
    cases ls with
    | nil => rfl
    | cons m ms => simp [hl]

/-- **The tokens of a script** are the lexemes that it is written from, at their places. -/
theorem tokenize_of_writes {source : String} {ls : List Lexeme}
    (h : spelling.Writes ls source.toList) (hls : ∀ l ∈ ls, l.Standalone) :
    (tokenize source).map Token.toLexeme = ls := by
  have hcuts := cuts_of_writes h hls none
  rw [tokenize, scan, joinGarbage_eq_self hcuts.matched]
  calc ((Token.placeAll 0 (pieces none source.toList)).filter (!·.kind.isTrivia)).map
        Token.toLexeme
    _ = ((Token.placeAll 0 (pieces none source.toList)).map Token.toLexeme).filter
          (!·.kind.isTrivia) := by rw [List.filter_map]; rfl
    _ = ls := by rw [Token.map_toLexeme_placeAll, hcuts.significant]

/-! ## Names and numbers -/

theorem not_isOperatorChar {c : Char} (hc : isIdentStart c = true ∨ c.isDigit = true) :
    isOperatorChar c = false := by
  rw [Bool.eq_false_iff]
  intro hop
  simp only [isOperatorChar, Bool.or_eq_true, beq_iff_eq] at hop
  obtain (((((((((((rfl | rfl) | rfl) | rfl) | rfl) | rfl) | rfl) | rfl) | rfl) | rfl) | rfl) |
    rfl) | rfl := hop <;> exact absurd hc (by decide)

/-- What begins a name begins nothing else. -/
theorem step_ident {c : Char} (hc : isIdentStart c = true) (previous : Option Lexeme)
    (cs : List Char) : step previous c cs = takeRun .ident [c] isIdentPart cs := by
  unfold step
  split
  case h_16 =>
    rw [if_neg (by simp [not_isOperatorChar (.inl hc)]), if_pos hc]
  all_goals exact absurd hc (by decide)

theorem not_isIdentStart {c : Char} (hc : c.isDigit = true) : isIdentStart c = false := by
  simp only [Char.isDigit, Bool.and_eq_true, decide_eq_true_eq] at hc
  have hle : c.val.toNat ≤ 57 := UInt32.le_iff_toNat_le.mp hc.2
  have halpha : c.isAlpha = false := by
    show (decide (65 ≤ c.val ∧ c.val ≤ 90) || (decide (97 ≤ c.val) && decide (c.val ≤ 122))) = false
    rw [Bool.eq_false_iff]
    simp only [ne_eq, Bool.or_eq_true, Bool.and_eq_true, decide_eq_true_eq]
    rintro (⟨h, -⟩ | ⟨h, -⟩)
    · have hupper : 65 ≤ c.val.toNat := UInt32.le_iff_toNat_le.mp h
      omega
    · have hlower : 97 ≤ c.val.toNat := UInt32.le_iff_toNat_le.mp h
      omega
  have hunder : c ≠ '_' := by
    rintro rfl
    exact absurd hc (by decide)
  have hdollar : c ≠ '$' := by
    rintro rfl
    exact absurd hc (by decide)
  simp [isIdentStart, halpha, hunder, hdollar]

/-- What begins a number begins nothing else. -/
theorem step_number {c : Char} (hc : c.isDigit = true) (previous : Option Lexeme)
    (cs : List Char) : step previous c cs = takeRun .number [c] isNumberPart cs := by
  unfold step
  split
  case h_16 =>
    rw [if_neg (by simp [not_isOperatorChar (.inr hc)]), if_neg (by simp [not_isIdentStart hc]),
      if_pos hc]
  all_goals exact absurd hc (by decide)

theorem standalone_ident {c : Char} {cs : List Char} (hc : isIdentStart c = true)
    (hcs : ∀ d ∈ cs, isIdentPart d = true) : Lexeme.Standalone ⟨.ident, c :: cs⟩ where
  step_eq previous rest hrest := by
    obtain ⟨htake, hdrop⟩ := run_eq hcs hrest
    refine ⟨c, cs, rfl, ?_⟩
    rw [step_ident hc, takeRun, htake, hdrop]
    rfl
  significant := rfl
  matched := by simp

theorem standalone_number {c : Char} {cs : List Char} (hc : c.isDigit = true)
    (hcs : ∀ d ∈ cs, isNumberPart d = true) : Lexeme.Standalone ⟨.number, c :: cs⟩ where
  step_eq previous rest hrest := by
    obtain ⟨htake, hdrop⟩ := run_eq hcs hrest
    refine ⟨c, cs, rfl, ?_⟩
    rw [step_number hc, takeRun, htake, hdrop]
    rfl
  significant := rfl
  matched := by simp

/-! ## Quoted literals -/

/-- How a character stands between single quotes. -/
def escapeChar (c : Char) : List Char :=
  match c with
  | '\\' => ['\\', '\\']
  | '\x27' => ['\\', '\x27']
  | '\n' => ['\\', 'n']
  | '\r' => ['\\', 'r']
  | c => [c]

/-- A text between single quotes. -/
def quote (text : List Char) : List Char := '\x27' :: (text.flatMap escapeChar ++ ['\x27'])

theorem literalBody_escapeChar (c : Char) (cs : List Char) :
    literalBody '\x27' false (escapeChar c ++ cs) =
      (escapeChar c ++ (literalBody '\x27' false cs).1, (literalBody '\x27' false cs).2.1,
        (literalBody '\x27' false cs).2.2) := by
  unfold escapeChar
  split
  case h_5 hbackslash hquote hnewline _ =>
    rw [List.singleton_append, literalBody.eq_def]
    dsimp only
    rw [if_neg hquote, if_neg hbackslash, if_neg (fun h ↦ hnewline h.1)]
    rfl
  all_goals simp [literalBody]

/-- The body of a quoted text ends where it should. -/
theorem literalBody_flatMap_escapeChar (text rest : List Char) :
    literalBody '\x27' false (text.flatMap escapeChar ++ '\x27' :: rest) =
      (text.flatMap escapeChar, true, rest) := by
  induction text with
  | nil =>
    rw [List.flatMap_nil, List.nil_append, literalBody.eq_def]
    simp
  | cons c text ih =>
    rw [List.flatMap_cons, List.append_assoc, literalBody_escapeChar, ih]

theorem standalone_quote (text : List Char) : Lexeme.Standalone ⟨.string, quote text⟩ where
  step_eq previous rest _ := by
    refine ⟨'\x27', text.flatMap escapeChar ++ ['\x27'], rfl, ?_⟩
    rw [List.append_assoc, List.singleton_append]
    show takeLiteral .string '\x27' false _ = _
    rw [takeLiteral, literalBody_flatMap_escapeChar]
    rfl
  significant := rfl
  matched := by simp

/-! ## Marks -/

/-- A mark of one character that goes on with nothing. -/
theorem standalone_mark {c : Char} {kind : TokenKind}
    (hstep : ∀ previous rest, step previous c rest = (⟨kind, [c]⟩, rest))
    (hsignificant : kind.isTrivia = false) (hmatched : kind ≠ .garbage) :
    Lexeme.Standalone ⟨kind, [c]⟩ where
  step_eq previous rest _ := ⟨c, [], rfl, hstep previous rest⟩
  significant := hsignificant
  matched := hmatched

theorem standalone_comma : Lexeme.Standalone ⟨.comma, [',']⟩ :=
  standalone_mark (fun _ _ ↦ rfl) rfl (by simp)

theorem standalone_colon : Lexeme.Standalone ⟨.colon, [':']⟩ :=
  standalone_mark (fun _ _ ↦ rfl) rfl (by simp)

theorem standalone_opening (d : Delimiter) :
    Lexeme.Standalone ⟨.opening d, [d.opener]⟩ := by
  cases d <;> exact standalone_mark (fun _ _ ↦ rfl) rfl (by simp)

theorem standalone_closing (d : Delimiter) :
    Lexeme.Standalone ⟨.closing d, [d.closer]⟩ := by
  cases d <;> exact standalone_mark (fun _ _ ↦ rfl) rfl (by simp)

theorem standalone_dot : Lexeme.Standalone ⟨.dot, ['.']⟩ where
  step_eq previous rest hrest := by
    refine ⟨'.', [], rfl, ?_⟩
    show takeDots rest = _
    have hdots : rest.take 2 ≠ ['.', '.'] := by
      cases rest with
      | nil => simp
      | cons c rest =>
        have hc : c ≠ '.' := by simpa [Lexeme.absorbs] using hrest c rfl
        simp [hc]
    rw [takeDots, if_neg hdots]
  significant := rfl
  matched := by simp

/-- An operator ends where no character of operators follows. -/
theorem standalone_operator {c : Char} {cs : List Char} {kind : TokenKind}
    (hstep : ∀ previous rest, step previous c rest = takeOperator c rest)
    (hcs : ∀ d ∈ cs, isOperatorChar d = true)
    (hkind : kind = if c :: cs = ['=', '>'] then .arrow else .operator) :
    Lexeme.Standalone ⟨kind, c :: cs⟩ where
  step_eq previous rest hrest := by
    have habsorbs : ∀ d, Lexeme.absorbs ⟨kind, c :: cs⟩ d = isOperatorChar d := by
      intro d
      rw [hkind]
      split <;> rfl
    obtain ⟨htake, hdrop⟩ := run_eq hcs (fun d hd ↦ by rw [← habsorbs]; exact hrest d hd)
    refine ⟨c, cs, rfl, ?_⟩
    rw [hstep, takeOperator, htake, hdrop, hkind]
  significant := by rw [hkind]; split <;> rfl
  matched := by rw [hkind]; split <;> simp

end Concord.Script
