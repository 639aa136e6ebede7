import Concord.Proofs.Run
import Concord.Query.Lexing

/-!
# Where a text can be cut

A step of the lexer takes the longest piece that it can, so the piece at the end of a text may go
on if more text follows.  It can tell from one character whether it does: `Piece.absorbs p c` says
that the piece `p` would take in a `c` behind it.

* `step_append_tail` — a step in front of more text takes the same piece, unless the piece absorbs
  what follows.
* `pieces_append` and `scan_append` — so a text can be cut behind any piece that does not absorb
  what follows, and both parts read by themselves.
* `absorbs_newline` — every piece that is a token ends at a line break.
-/

set_option autoImplicit false

namespace Concord.Query

/-! ## What goes on -/

/-- The marks that may close a predicate name. -/
def isMark (c : Char) : Bool := c == '?' || c == '!'

/-- Whether the piece is one of a token, and no unmatched text. -/
def Piece.isMatched : Piece → Bool
  | .unmatched _ => false
  | _ => true

/-- Whether the piece would go on with the character, if that stood behind it. -/
def Piece.absorbs : Piece → Char → Bool
  | .lexeme .ident _, c | .lexeme .underscore _, c | .lexeme .captureName _, c => isIdentPart c
  | .lexeme .predicateName text, c => !text.getLast?.any isMark && (isPredicatePart c || isMark c)
  | .lexeme .blank _, c => isBlank c
  | .lexeme .comment _, c => c != '\n'
  | .lexeme .., _ | .literal _, _ => false
  | .unmatched _, _ => true

/-- A line break ends every token. -/
theorem absorbs_newline {p : Piece} (h : p.isMatched = true) : p.absorbs '\n' = false := by
  cases p with
  | lexeme kind text =>
    cases kind
    case predicateName =>
      rw [Piece.absorbs, show (isPredicatePart '\n' || isMark '\n') = false by decide,
        Bool.and_false]
    all_goals rfl
  | literal body => rfl
  | unmatched text => contradiction

/-! ## What a step looks at -/

/-- The characters that are tokens by themselves. -/
def singles : List Char := "()[]:!.*+?/\n".toList

/-- The characters that open a comment, a string or the name of a capture or predicate. -/
def openers : List Char := [';', '"', '@', '#']

theorem step_single {c : Char} (h : c ∈ singles) :
    ∃ kind, (∀ cs, step c cs = (.lexeme kind [c], cs)) ∧
      ∀ d, (Piece.lexeme kind [c]).absorbs d = false := by
  have h : c ∈ ['(', ')', '[', ']', ':', '!', '.', '*', '+', '?', '/', '\n'] := h
  simp only [List.mem_cons, List.not_mem_nil, or_false] at h
  rcases h with rfl | rfl | rfl | rfl | rfl | rfl | rfl | rfl | rfl | rfl | rfl | rfl
  all_goals exact ⟨_, fun cs ↦ rfl, fun d ↦ rfl⟩

theorem step_default {c : Char} (h : c ∉ singles ++ openers) (cs : List Char) :
    step c cs = if isBlank c then takeRun .blank c isBlank cs
      else if isIdentStart c then takeIdent c cs else (.unmatched [c], cs) := by
  unfold step
  split
  all_goals first
    | rfl
    | exact absurd (by decide) h

/-- The ways in which a step reads a text that begins with `c`. -/
inductive StepForm (c : Char) : Prop where
  | single (kind : TokenKind) (h : ∀ cs, step c cs = (.lexeme kind [c], cs))
    (habsorbs : ∀ d, (Piece.lexeme kind [c]).absorbs d = false)
  | comment (h : ∀ cs, step c cs = takeRun .comment c (· != '\n') cs)
  | blank (h : ∀ cs, step c cs = takeRun .blank c isBlank cs)
  | literal (h : ∀ cs, step c cs = takeLiteral cs)
  | captureName (h : ∀ cs, step c cs = takeCaptureName cs)
  | predicateName (h : ∀ cs, step c cs = takePredicateName cs)
  | ident (h : ∀ cs, step c cs = takeIdent c cs)
  | unmatched (h : ∀ cs, step c cs = (.unmatched [c], cs))

theorem stepForm (c : Char) : StepForm c := by
  by_cases hsingle : c ∈ singles
  · obtain ⟨kind, h, habsorbs⟩ := step_single hsingle
    exact .single kind h habsorbs
  by_cases hopener : c ∈ openers
  · simp only [openers, List.mem_cons, List.not_mem_nil, or_false] at hopener
    rcases hopener with rfl | rfl | rfl | rfl
    · exact .comment fun _ ↦ rfl
    · exact .literal fun _ ↦ rfl
    · exact .captureName fun _ ↦ rfl
    · exact .predicateName fun _ ↦ rfl
  have hdefault : c ∉ singles ++ openers := by
    intro hc
    rcases List.mem_append.mp hc with hc | hc
    · exact hsingle hc
    · exact hopener hc
  have hstep := step_default hdefault
  cases hblank : isBlank c with
  | true => exact .blank fun cs ↦ by rw [hstep, if_pos hblank]
  | false =>
    rw [hblank] at hstep
    cases hident : isIdentStart c with
    | true => exact .ident fun cs ↦ by rw [hstep, if_neg Bool.false_ne_true, if_pos hident]
    | false => exact .unmatched fun cs ↦ by rw [hstep]; simp [hident]

theorem takeRun_append_tail {kind : TokenKind} {c : Char} {p : Char → Bool} {cs tail : List Char}
    (h : (takeRun kind c p cs).2 = [] → ∀ d ∈ tail.head?, p d = false) :
    takeRun kind c p (cs ++ tail) = ((takeRun kind c p cs).1, (takeRun kind c p cs).2 ++ tail) := by
  obtain ⟨htake, hdrop⟩ := run_append h
  simp only [takeRun, htake, hdrop]

theorem literalBody_append_tail {quote : Char} {multiline : Bool} {cs : List Char}
    (h : (literalBody quote multiline cs).2.1 = true) (tail : List Char) :
    literalBody quote multiline (cs ++ tail) =
      ((literalBody quote multiline cs).1, true, (literalBody quote multiline cs).2.2 ++ tail) := by
  fun_induction literalBody quote multiline cs with
  | case1 => contradiction
  | case2 cs => simp [literalBody.eq_def]
  | case3 => contradiction
  | case4 => contradiction
  | case5 d ds hd body closed rest heq hquote ih =>
    rw [heq] at ih
    rw [List.cons_append, List.cons_append, literalBody, if_neg hquote, if_pos rfl, if_neg hd, ih h]
  | case6 => contradiction
  | case7 c cs hquote hslash hline body closed rest heq ih =>
    rw [heq] at ih
    rw [List.cons_append, literalBody.eq_def]
    dsimp only
    rw [if_neg hquote, if_neg hslash, if_neg hline, ih h]

theorem takeLiteral_append_tail {cs : List Char} (h : (takeLiteral cs).1.isMatched = true)
    (tail : List Char) :
    takeLiteral (cs ++ tail) = ((takeLiteral cs).1, (takeLiteral cs).2 ++ tail) := by
  rw [takeLiteral] at h ⊢
  split at h
  · rename_i body rest heq
    have hclosed : (literalBody '"' true cs).2.1 = true := by rw [heq]
    have hbody := literalBody_append_tail hclosed tail
    rw [heq] at hbody
    simp only [takeLiteral, hbody, heq]
  · contradiction

theorem takeCaptureName_append_tail {cs tail : List Char}
    (hmatched : (takeCaptureName cs).1.isMatched = true)
    (h : (takeCaptureName cs).2 = [] →
      ∀ d ∈ tail.head?, (takeCaptureName cs).1.absorbs d = false) :
    takeCaptureName (cs ++ tail) = ((takeCaptureName cs).1, (takeCaptureName cs).2 ++ tail) := by
  cases cs with
  | nil => contradiction
  | cons d ds =>
    rw [takeCaptureName] at hmatched h
    rw [List.cons_append, takeCaptureName, takeCaptureName]
    cases hd : isNameStart d with
    | false =>
      rw [hd] at hmatched
      contradiction
    | true =>
      rw [hd] at h
      obtain ⟨htake, hdrop⟩ := run_append (p := isIdentPart) h
      rw [htake, hdrop]
      rfl

/-- No character of a predicate name is a mark, except one that closes it. -/
theorem isMark_of_isPredicatePart {c : Char} (h : isPredicatePart c = true) : isMark c = false := by
  rw [Bool.eq_false_iff]
  intro hmark
  simp only [isMark, Bool.or_eq_true, beq_iff_eq] at hmark
  rcases hmark with rfl | rfl <;> contradiction

theorem isPredicatePart_of_isNameStart {c : Char} (h : isNameStart c = true) :
    isPredicatePart c = true := by
  simp only [isNameStart, isPredicatePart, Char.isAlphanum, Bool.or_eq_true] at h ⊢
  rcases h with h | h
  · exact .inl (.inl (.inl h))
  · exact .inl (.inr h)

theorem any_isMark_getLast? {ds : List Char} (h : ∀ c ∈ ds, isPredicatePart c = true) :
    ('#' :: ds).getLast?.any isMark = false := by
  rw [Option.any_eq_false_iff_get]
  intro hsome
  have hmem := List.mem_of_getLast? (Option.some_get hsome).symm
  rcases List.mem_cons.mp hmem with heq | hmem
  · rw [heq]
    rfl
  · exact isMark_of_isPredicatePart (h _ hmem)

theorem splitMark_append_tail {cs tail : List Char}
    (h : cs = [] → ∀ e ∈ tail.head?, isMark e = false) :
    splitMark (cs ++ tail) = ((splitMark cs).1, (splitMark cs).2 ++ tail) := by
  cases cs with
  | nil =>
    cases tail with
    | nil => rfl
    | cons e tail =>
      have he := h rfl e rfl
      rw [List.nil_append, splitMark, splitMark, if_neg (by simpa [isMark] using he)]
      rfl
  | cons e es =>
    rw [List.cons_append, splitMark, splitMark]
    split <;> rfl

/-- A predicate name that is a run up to the end has no mark, so it absorbs one too. -/
theorem absorbs_takePredicateName {d : Char} {ds : List Char} (hd : isNameStart d = true)
    (hrun : ds.dropWhile isPredicatePart = []) (e : Char) :
    (takePredicateName (d :: ds)).1.absorbs e = (isPredicatePart e || isMark e) := by
  have htake : ds.takeWhile isPredicatePart = ds := by
    have happend := List.takeWhile_append_dropWhile (p := isPredicatePart) (l := ds)
    rwa [hrun, List.append_nil] at happend
  have hds : ∀ c ∈ d :: ds, isPredicatePart c = true := by
    intro c hc
    rcases List.mem_cons.mp hc with rfl | hc
    · exact isPredicatePart_of_isNameStart hd
    · rw [← htake] at hc
      exact List.all_eq_true.mp List.all_takeWhile c hc
  rw [takePredicateName, if_pos hd, hrun, htake, splitMark]
  dsimp only
  rw [List.append_nil, Piece.absorbs, any_isMark_getLast? hds, Bool.not_false, Bool.true_and]

theorem takePredicateName_append_tail {cs tail : List Char}
    (hmatched : (takePredicateName cs).1.isMatched = true)
    (h : (takePredicateName cs).2 = [] →
      ∀ d ∈ tail.head?, (takePredicateName cs).1.absorbs d = false) :
    takePredicateName (cs ++ tail) =
      ((takePredicateName cs).1, (takePredicateName cs).2 ++ tail) := by
  cases cs with
  | nil => contradiction
  | cons d ds =>
    cases hd : isNameStart d with
    | false =>
      rw [takePredicateName, hd] at hmatched
      contradiction
    | true =>
      have hrun : ds.dropWhile isPredicatePart = [] →
          ∀ e ∈ tail.head?, isPredicatePart e = false ∧ isMark e = false := by
        intro hnil e he
        have hrest : (takePredicateName (d :: ds)).2 = [] := by
          rw [takePredicateName, if_pos hd, hnil]
          rfl
        have habsorbs := h hrest e he
        rw [absorbs_takePredicateName hd hnil] at habsorbs
        exact Bool.or_eq_false_iff.mp habsorbs
      obtain ⟨htake, hdrop⟩ := run_append fun hnil e he ↦ (hrun hnil e he).1
      have hmark := splitMark_append_tail fun hnil e he ↦ (hrun hnil e he).2
      rw [List.cons_append, takePredicateName, takePredicateName, if_pos hd, if_pos hd, htake,
        hdrop, hmark]

theorem takeIdent_append_tail {c : Char} {cs tail : List Char}
    (h : (takeIdent c cs).2 = [] → ∀ d ∈ tail.head?, (takeIdent c cs).1.absorbs d = false) :
    takeIdent c (cs ++ tail) = ((takeIdent c cs).1, (takeIdent c cs).2 ++ tail) := by
  have habsorbs : ∀ d, (takeIdent c cs).1.absorbs d = isIdentPart d := by
    intro d
    rw [takeIdent]
    dsimp only
    split <;> rfl
  simp only [habsorbs] at h
  obtain ⟨htake, hdrop⟩ := run_append (p := isIdentPart) h
  simp only [takeIdent, htake, hdrop]

/-- **A step looks no further than one character.**  In front of more text it takes the same piece,
unless the piece ends the text so far and absorbs what follows. -/
theorem step_append_tail {c : Char} {cs tail : List Char}
    (hmatched : (step c cs).1.isMatched = true)
    (h : (step c cs).2 = [] → ∀ d ∈ tail.head?, (step c cs).1.absorbs d = false) :
    step c (cs ++ tail) = ((step c cs).1, (step c cs).2 ++ tail) := by
  cases stepForm c with
  | single kind hstep habsorbs => rw [hstep, hstep]
  | comment hstep =>
    rw [hstep] at h
    rw [hstep, hstep]
    exact takeRun_append_tail h
  | blank hstep =>
    rw [hstep] at h
    rw [hstep, hstep]
    exact takeRun_append_tail h
  | literal hstep =>
    rw [hstep] at hmatched
    rw [hstep, hstep]
    exact takeLiteral_append_tail hmatched tail
  | captureName hstep =>
    rw [hstep] at hmatched h
    rw [hstep, hstep]
    exact takeCaptureName_append_tail hmatched h
  | predicateName hstep =>
    rw [hstep] at hmatched h
    rw [hstep, hstep]
    exact takePredicateName_append_tail hmatched h
  | ident hstep =>
    rw [hstep] at h
    rw [hstep, hstep]
    exact takeIdent_append_tail h
  | unmatched hstep =>
    rw [hstep] at hmatched
    contradiction

/-! ## Whole texts -/

theorem pieces_nil : pieces [] = [] := by rw [pieces]

theorem pieces_cons (c : Char) (cs : List Char) :
    pieces (c :: cs) = (step c cs).1 :: pieces (step c cs).2 := by rw [pieces]

/-- **A text can be cut** behind a piece that does not absorb what follows. -/
theorem pieces_append {cs tail : List Char} (hmatched : ∀ p ∈ pieces cs, p.isMatched = true)
    (h : ∀ p ∈ (pieces cs).getLast?, ∀ d ∈ tail.head?, p.absorbs d = false) :
    pieces (cs ++ tail) = pieces cs ++ pieces tail := by
  fun_induction pieces cs with
  | case1 => rfl
  | case2 c cs ih =>
    have hstep : step c (cs ++ tail) = ((step c cs).1, (step c cs).2 ++ tail) := by
      refine step_append_tail (hmatched _ List.mem_cons_self) fun hnil ↦ h (step c cs).1 ?_
      rw [hnil, pieces_nil]
      rfl
    have hrest : pieces ((step c cs).2 ++ tail) = pieces (step c cs).2 ++ pieces tail := by
      refine ih (fun p hp ↦ hmatched p (List.mem_cons_of_mem _ hp)) fun p hp ↦ h p ?_
      rw [List.getLast?_cons, Option.mem_def.mp hp]
      rfl
    rw [List.cons_append, pieces_cons, hstep, hrest, List.cons_append]

theorem joinUnmatched_append {ps : List Piece} (hmatched : ∀ p ∈ ps, p.isMatched = true)
    (qs : List Piece) : joinUnmatched (ps ++ qs) = ps ++ joinUnmatched qs := by
  induction ps with
  | nil => rfl
  | cons p ps ih =>
    have hps := ih fun q hq ↦ hmatched q (List.mem_cons_of_mem p hq)
    have hp := hmatched p List.mem_cons_self
    cases p with
    | unmatched text => contradiction
    | lexeme kind text => rw [List.cons_append, joinUnmatched, hps, List.cons_append]; simp
    | literal body => rw [List.cons_append, joinUnmatched, hps, List.cons_append]; simp

/-- The lexemes of a text that is cut are those of its parts. -/
theorem scan_append {cs tail : List Char} (hmatched : ∀ p ∈ pieces cs, p.isMatched = true)
    (h : ∀ p ∈ (pieces cs).getLast?, ∀ d ∈ tail.head?, p.absorbs d = false) :
    scan (cs ++ tail) = scan cs ++ scan tail := by
  have hjoin := joinUnmatched_append hmatched []
  rw [List.append_nil, joinUnmatched, List.append_nil] at hjoin
  rw [scan, scan, scan, pieces_append hmatched h, joinUnmatched_append hmatched, hjoin,
    List.flatMap_append]

/-! ## Texts without garbage -/

theorem exists_unmatched_joinUnmatched {ps : List Piece} {text : List Char}
    (h : Piece.unmatched text ∈ ps) : ∃ text', Piece.unmatched text' ∈ joinUnmatched ps := by
  fun_induction joinUnmatched ps with
  | case1 => exact absurd h List.not_mem_nil
  | case2 a ps b qs heq ih => exact ⟨a ++ b, List.mem_cons_self⟩
  | case3 a ps _ ih => exact ⟨a, List.mem_cons_self⟩
  | case4 p ps hp ih =>
    rcases List.mem_cons.mp h with rfl | h
    · exact absurd rfl (hp text)
    · obtain ⟨text', h'⟩ := ih h
      exact ⟨text', List.mem_cons_of_mem p h'⟩

/-- What no token matches comes out as garbage. -/
theorem isMatched_of_mem_pieces {cs : List Char} (h : ∀ l ∈ scan cs, l.kind ≠ .garbage) :
    ∀ p ∈ pieces cs, p.isMatched = true := by
  intro p hp
  cases p with
  | lexeme kind text => rfl
  | literal body => rfl
  | unmatched text =>
    obtain ⟨text', h'⟩ := exists_unmatched_joinUnmatched hp
    exact absurd rfl (h ⟨.garbage, text'⟩ (List.mem_flatMap.mpr ⟨_, h', List.mem_singleton_self _⟩))

end Concord.Query
