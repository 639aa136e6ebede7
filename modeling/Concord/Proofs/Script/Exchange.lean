import Concord.Proofs.Script.RegexLiteral

/-!
# Exchanging what follows a lexeme

How the lexer cuts a text depends on what follows: a run ends where something else begins, and a
slash begins no comment if nothing closes it.  `Exchange` says of two texts that no lexeme in front
of the one can tell it from the other, and `Exchange.quoted` that a name may be exchanged for the
string with that name.

* `stepForm` — the ways in which a lexeme is cut, by its first character.
* `Exchange.step_eq` — a lexeme that ends in front of the one text also ends in front of the other.
* `Exchange.pieces_eq` — so does a run of lexemes.
-/

set_option autoImplicit false

namespace Concord.Script

/-! ## The ways to cut a lexeme -/

/-- The characters that tell by themselves how a lexeme goes on. -/
def marks : List Char := "()\x7b\x7d[],:;\n./\"\x27\x60".toList

theorem step_default {c : Char} (h : c ∉ marks) (previous : Option Lexeme) (cs : List Char) :
    step previous c cs = if isOperatorChar c then takeOperator c cs
      else if isIdentStart c then takeRun .ident [c] isIdentPart cs
      else if c.isDigit then takeRun .number [c] isNumberPart cs
      else if isBlank c then takeRun .blank [c] isBlank cs
      else (⟨.garbage, [c]⟩, cs) := by
  unfold step
  split
  all_goals first
    | rfl
    | exact absurd (by decide) h

/-- The ways in which a lexeme that begins with `c` is cut. -/
inductive StepForm (c : Char) : Prop where
  | single (k : TokenKind) (h : ∀ previous cs, step previous c cs = (⟨k, [c]⟩, cs))
    (hk : k ≠ .ident)
  | dots (h : ∀ previous cs, step previous c cs = takeDots cs)
  | slash (h : ∀ previous cs, step previous c cs = takeSlashed previous cs)
  | literal (k : TokenKind) (multiline : Bool) (hc : c ∈ ['"', '\x27', '\x60'])
    (h : ∀ previous cs, step previous c cs = takeLiteral k c multiline cs) (hk : k ≠ .ident)
  | operator (h : ∀ previous cs, step previous c cs = takeOperator c cs)
  | ident (hc : isIdentStart c = true)
    (h : ∀ previous cs, step previous c cs = takeRun .ident [c] isIdentPart cs)
  | number (h : ∀ previous cs, step previous c cs = takeRun .number [c] isNumberPart cs)
  | blank (h : ∀ previous cs, step previous c cs = takeRun .blank [c] isBlank cs)

theorem stepForm (c : Char) : StepForm c := by
  by_cases hmark : c ∈ marks
  · have hmark : c ∈ ['(', ')', '\x7b', '\x7d', '[', ']', ',', ':', ';', '\n', '.', '/', '"',
      '\x27', '\x60'] := hmark
    simp only [List.mem_cons, List.not_mem_nil, or_false] at hmark
    rcases hmark with rfl | rfl | rfl | rfl | rfl | rfl | rfl | rfl | rfl | rfl | rfl | rfl | rfl |
      rfl | rfl
    all_goals first
      | exact .single _ (fun _ _ ↦ rfl) (by simp)
      | exact .dots fun _ _ ↦ rfl
      | exact .slash fun _ _ ↦ rfl
      | exact .literal _ _ (by simp) (fun _ _ ↦ rfl) (by simp)
  have hstep := step_default hmark
  by_cases hoperator : isOperatorChar c = true
  · exact .operator fun previous cs ↦ by rw [hstep, if_pos hoperator]
  by_cases hident : isIdentStart c = true
  · exact .ident hident fun previous cs ↦ by rw [hstep, if_neg hoperator, if_pos hident]
  by_cases hdigit : c.isDigit = true
  · exact .number fun previous cs ↦ by
      rw [hstep, if_neg hoperator, if_neg hident, if_pos hdigit]
  by_cases hblank : isBlank c = true
  · exact .blank fun previous cs ↦ by
      rw [hstep, if_neg hoperator, if_neg hident, if_neg hdigit, if_pos hblank]
  · exact .single .garbage (fun previous cs ↦ by
      rw [hstep, if_neg hoperator, if_neg hident, if_neg hdigit, if_neg hblank]) (by simp)

/-- The first lexeme of a text is cut off its front. -/
theorem exists_of_pieces_eq_cons {previous : Option Lexeme} {cs : List Char} {l : Lexeme}
    {ls : List Lexeme} (h : pieces previous cs = l :: ls) : ∃ c ds rest, cs = c :: ds ∧
      cs = l.text ++ rest ∧ step previous c ds = (l, rest) ∧
        pieces (previousAfter previous l) rest = ls := by
  cases cs with
  | nil =>
    rw [pieces] at h
    contradiction
  | cons c ds =>
    rw [pieces] at h
    obtain ⟨rfl, hrest⟩ := List.cons.inj h
    exact ⟨c, ds, _, rfl, (step_append previous c ds).symm, rfl, hrest⟩

/-! ## Texts that can be exchanged -/

/-- A quote around a string. -/
def IsQuote (c : Char) : Prop := c = '"' ∨ c = '\x27'

/-- Two texts, one of which begins with a name and the other one with a quote, such that no lexeme
in front of the one can tell it from the other. -/
structure Exchange (tail tail' : List Char) : Prop where
  name : ∃ c cs, tail = c :: cs ∧ isIdentStart c = true
  quote : ∃ c cs, tail' = c :: cs ∧ IsQuote c
  block : blockBody tail = none → blockBody tail' = none
  regex : ∀ inClass escaped, regexBody inClass escaped tail = none →
    regexBody inClass escaped tail' = none

/-! ### Walks that look for an end -/

/-- What the walk over a regular expression does at a character: it gives up, it ends, or it goes
on. -/
theorem regexBody_cons_cases (inClass escaped : Bool) (c : Char) :
    (∀ cs, regexBody inClass escaped (c :: cs) = none) ∨
      (∀ cs, regexBody inClass escaped (c :: cs) = some ([c], cs)) ∨
        ∃ inClass' escaped', ∀ cs,
          regexBody inClass escaped (c :: cs) = onward [c] (regexBody inClass' escaped' cs) := by
  by_cases hbreak : c = '\n'
  · exact .inl fun cs ↦ by simp only [regexBody, if_pos hbreak]
  by_cases hescaped : escaped = true
  · exact .inr (.inr ⟨inClass, false, fun cs ↦ by
      simp only [regexBody, if_neg hbreak, if_pos hescaped]; rfl⟩)
  by_cases hbackslash : c = '\\'
  · exact .inr (.inr ⟨inClass, true, fun cs ↦ by
      simp only [regexBody, if_neg hbreak, if_neg hescaped, if_pos hbackslash]; rfl⟩)
  by_cases hopen : c = '['
  · exact .inr (.inr ⟨true, false, fun cs ↦ by
      simp only [regexBody, if_neg hbreak, if_neg hescaped, if_neg hbackslash, if_pos hopen]; rfl⟩)
  by_cases hclose : c = ']'
  · exact .inr (.inr ⟨false, false, fun cs ↦ by
      simp only [regexBody, if_neg hbreak, if_neg hescaped, if_neg hbackslash, if_neg hopen,
        if_pos hclose]; rfl⟩)
  by_cases hslash : c = '/' ∧ (!inClass) = true
  · exact .inr (.inl fun cs ↦ by
      simp only [regexBody, if_neg hbreak, if_neg hescaped, if_neg hbackslash, if_neg hopen,
        if_neg hclose, if_pos hslash])
  · exact .inr (.inr ⟨inClass, false, fun cs ↦ by
      simp only [regexBody, if_neg hbreak, if_neg hescaped, if_neg hbackslash, if_neg hopen,
        if_neg hclose, if_neg hslash]; rfl⟩)

theorem regexBody_ne_nil {inClass escaped : Bool} {cs body rest : List Char}
    (h : regexBody inClass escaped cs = some (body, rest)) : body ≠ [] := by
  cases cs with
  | nil => simp [regexBody] at h
  | cons c cs =>
    rcases regexBody_cons_cases inClass escaped c with hnone | hend | ⟨_, _, hnext⟩
    · rw [hnone] at h
      contradiction
    · rw [hend] at h
      cases h
      exact List.cons_ne_nil c []
    · rw [hnext] at h
      obtain ⟨tail, -, rfl⟩ := exists_of_onward h
      exact List.cons_ne_nil c tail

/-- A regular expression that ends within a text ends there whatever follows. -/
theorem regexBody_append_tail {inClass escaped : Bool} {cs tail body rest : List Char}
    (h : regexBody inClass escaped (cs ++ tail) = some (body, rest ++ tail)) (tail' : List Char) :
    regexBody inClass escaped (cs ++ tail') = some (body, rest ++ tail') := by
  induction cs generalizing inClass escaped body with
  | nil =>
    have happend := regexBody_append h
    rw [List.nil_append, ← List.append_assoc, List.append_left_eq_self] at happend
    exact absurd (List.append_eq_nil_iff.mp happend).1 (regexBody_ne_nil h)
  | cons c cs ih =>
    rw [List.cons_append] at h ⊢
    rcases regexBody_cons_cases inClass escaped c with hnone | hend | ⟨inClass', escaped', hnext⟩
    · rw [hnone] at h
      contradiction
    · rw [hend, Option.some_inj, Prod.mk.injEq] at h
      obtain ⟨rfl, hrest⟩ := h
      rw [hend, List.append_cancel_right hrest]
    · rw [hnext] at h ⊢
      obtain ⟨behind, hbehind, rfl⟩ := exists_of_onward h
      rw [ih hbehind]
      rfl

/-- A character that neither walk stops at. -/
def IsPassed (c : Char) : Prop := c ∉ ['\n', '\\', '[', ']', '/', '*']

theorem blockBody_passed {front : List Char} (h : ∀ c ∈ front, IsPassed c) (cs : List Char) :
    blockBody (front ++ cs) = none ↔ blockBody cs = none := by
  induction front with
  | nil => rfl
  | cons c front ih =>
    obtain ⟨hc, hfront⟩ := List.forall_mem_cons.mp h
    have hne : ¬ (c = '*' ∧ (front ++ cs).head? = some '/') := by
      rintro ⟨rfl, -⟩
      exact hc (by simp)
    rw [List.cons_append, blockBody, if_neg hne, Option.map_eq_none_iff, ih hfront]

theorem regexBody_passed {front : List Char} (h : ∀ c ∈ front, IsPassed c) (hne : front ≠ [])
    (inClass escaped : Bool) (cs : List Char) :
    regexBody inClass escaped (front ++ cs) = none ↔ regexBody inClass false cs = none := by
  have hnext : ∀ c, IsPassed c → ∀ escaped cs,
      regexBody inClass escaped (c :: cs) = none ↔ regexBody inClass false cs = none := by
    intro c hc escaped cs
    simp only [IsPassed, List.mem_cons, List.not_mem_nil, or_false, not_or] at hc
    obtain ⟨hbreak, hbackslash, hopen, hclose, hslash, -⟩ := hc
    cases escaped with
    | true => simp only [regexBody, if_neg hbreak, if_true, Option.map_eq_none_iff]
    | false =>
      rw [regexBody_plain (by simp [hbreak, hbackslash, hopen, hclose]) fun heq ↦ absurd heq hslash,
        onward, Option.map_eq_none_iff]
  induction front generalizing escaped with
  | nil => exact absurd rfl hne
  | cons c front ih =>
    obtain ⟨hc, hfront⟩ := List.forall_mem_cons.mp h
    rw [List.cons_append, hnext c hc]
    cases front with
    | nil => rfl
    | cons d front => exact ih hfront (List.cons_ne_nil d front) false

/-! ### A name and its string -/

theorem isPassed_of_isIdentPart {c : Char} (h : isIdentPart c = true) : IsPassed c := by
  have hmarks : ['\n', '\\', '[', ']', '/', '*'].any isIdentPart = false := by decide
  intro hc
  exact List.any_eq_false.mp hmarks c hc h

theorem isPassed_of_isQuote {c : Char} (h : IsQuote c) : IsPassed c := by
  rcases h with rfl | rfl <;> simp [IsPassed]

theorem isIdentPart_of_isIdentStart {c : Char} (h : isIdentStart c = true) :
    isIdentPart c = true := by
  simp only [isIdentStart, isIdentPart, Char.isAlphanum, Bool.or_eq_true] at h ⊢
  rcases h with (h | h) | h
  · exact .inl (.inl (.inl h))
  · exact .inl (.inr h)
  · exact .inr h

/-- **A name can be exchanged** for the string with that name. -/
theorem Exchange.quoted {quote c : Char} {cs : List Char} (hquote : IsQuote quote)
    (hc : isIdentStart c = true) (hcs : ∀ d ∈ cs, isIdentPart d = true) (back : List Char) :
    Exchange (c :: (cs ++ back)) (quote :: (c :: cs ++ quote :: back)) := by
  have hname : ∀ d ∈ c :: cs, IsPassed d := by
    refine List.forall_mem_cons.mpr ⟨?_, fun d hd ↦ isPassed_of_isIdentPart (hcs d hd)⟩
    exact isPassed_of_isIdentPart (isIdentPart_of_isIdentStart hc)
  have hstring : ∀ d ∈ quote :: (c :: cs ++ [quote]), IsPassed d := by
    intro d hd
    simp only [List.mem_cons, List.mem_append, List.not_mem_nil, or_false] at hd
    rcases hd with rfl | hd | rfl
    · exact isPassed_of_isQuote hquote
    · exact hname d (List.mem_cons.mpr hd)
    · exact isPassed_of_isQuote hquote
  have heq : quote :: (c :: cs ++ quote :: back) = quote :: (c :: cs ++ [quote]) ++ back := by simp
  refine ⟨⟨c, _, rfl, hc⟩, ⟨quote, _, rfl, hquote⟩, ?_, ?_⟩
  · rw [heq, blockBody_passed hstring, ← List.cons_append, blockBody_passed hname]
    exact id
  · intro inClass escaped
    rw [heq, regexBody_passed hstring (List.cons_ne_nil _ _), ← List.cons_append,
      regexBody_passed hname (List.cons_ne_nil _ _)]
    exact id

/-! ## What ends in front of them -/

namespace Exchange

variable {tail tail' : List Char} (h : Exchange tail tail')
include h

/-- A run that ends in front of the name, or before. -/
theorem run {p : Char → Bool}
    (hp : ∀ c d, isIdentStart c = true → IsQuote d → p c = false → p d = false)
    {cs rest : List Char} (hrun : (cs ++ tail).dropWhile p = rest ++ tail) :
    (cs ++ tail').takeWhile p = (cs ++ tail).takeWhile p ∧
      (cs ++ tail').dropWhile p = rest ++ tail' := by
  obtain ⟨c, ds, rfl, hc⟩ := h.name
  obtain ⟨d, ds', rfl, hd⟩ := h.quote
  -- a run that went on with the name would leave less than the name and what follows it
  have hpc : cs.dropWhile p = [] → p c = false := by
    intro hnil
    rw [List.dropWhile_append, hnil, List.isEmpty_nil, if_pos rfl] at hrun
    rw [Bool.eq_false_iff]
    intro hpc
    rw [List.dropWhile_cons_of_pos hpc] at hrun
    have hle := (List.dropWhile_sublist p (l := ds)).length_le
    rw [hrun, List.length_append, List.length_cons] at hle
    omega
  have hstop : cs.dropWhile p = [] → ∀ b ∈ (c :: ds).head?, p b = false := by
    rintro hnil _ ⟨⟩
    exact hpc hnil
  have hstop' : cs.dropWhile p = [] → ∀ b ∈ (d :: ds').head?, p b = false := by
    rintro hnil _ ⟨⟩
    exact hp c d hc hd (hpc hnil)
  obtain ⟨htake, hdrop⟩ := run_append hstop
  obtain ⟨htake', hdrop'⟩ := run_append hstop'
  rw [htake, htake', hdrop']
  rw [hdrop] at hrun
  exact ⟨rfl, by rw [List.append_cancel_right hrun]⟩

theorem takeRun_eq {kind : TokenKind} {front : List Char} {p : Char → Bool}
    (hp : ∀ c d, isIdentStart c = true → IsQuote d → p c = false → p d = false)
    {cs rest : List Char} {l : Lexeme}
    (hl : takeRun kind front p (cs ++ tail) = (l, rest ++ tail)) :
    takeRun kind front p (cs ++ tail') = (l, rest ++ tail') := by
  obtain ⟨rfl, hrun⟩ := Prod.mk.inj hl
  obtain ⟨htake, hdrop⟩ := h.run hp hrun
  rw [takeRun, htake, hdrop]

theorem takeOperator_eq {c : Char} {cs rest : List Char} {l : Lexeme}
    (hl : takeOperator c (cs ++ tail) = (l, rest ++ tail)) :
    takeOperator c (cs ++ tail') = (l, rest ++ tail') := by
  obtain ⟨rfl, hrun⟩ := Prod.mk.inj hl
  have hp : ∀ c d, isIdentStart c = true → IsQuote d → isOperatorChar c = false →
      isOperatorChar d = false := by
    rintro c d - (rfl | rfl) - <;> rfl
  obtain ⟨htake, hdrop⟩ := h.run hp hrun
  rw [takeOperator, htake, hdrop]

theorem head?_eq_iff {e : Char} (he : isIdentStart e = false) (he' : ¬ IsQuote e)
    (cs : List Char) : (cs ++ tail').head? = some e ↔ (cs ++ tail).head? = some e := by
  cases cs with
  | cons c cs => rfl
  | nil =>
    obtain ⟨c, ds, rfl, hc⟩ := h.name
    obtain ⟨d, ds', rfl, hd⟩ := h.quote
    simp only [List.nil_append, List.head?_cons, Option.some_inj]
    constructor
    · rintro rfl
      exact absurd hd he'
    · rintro rfl
      rw [he] at hc
      contradiction

omit h in
theorem take_two_eq_iff {tail : List Char} (htail : tail.head? ≠ some '.') (cs : List Char) :
    (cs ++ tail).take 2 = ['.', '.'] ↔ ∃ ds, cs = '.' :: '.' :: ds := by
  match cs with
  | [] => cases tail <;> simp_all
  | [c] => cases tail <;> simp_all
  | c :: d :: cs => simp

theorem takeDots_eq {cs rest : List Char} {l : Lexeme}
    (hl : takeDots (cs ++ tail) = (l, rest ++ tail)) :
    takeDots (cs ++ tail') = (l, rest ++ tail') := by
  have hhead : tail.head? ≠ some '.' := by
    obtain ⟨c, ds, rfl, hc⟩ := h.name
    rintro ⟨⟩
    contradiction
  have hhead' : tail'.head? ≠ some '.' := by
    intro hdot
    rw [← List.nil_append tail', h.head?_eq_iff rfl (by simp [IsQuote])] at hdot
    exact hhead hdot
  by_cases hdots : ∃ ds, cs = '.' :: '.' :: ds
  · rw [takeDots, if_pos ((take_two_eq_iff hhead cs).mpr hdots)] at hl
    rw [takeDots, if_pos ((take_two_eq_iff hhead' cs).mpr hdots)]
    obtain ⟨ds, rfl⟩ := hdots
    obtain ⟨rfl, hrest⟩ := Prod.mk.inj hl
    obtain rfl := List.append_cancel_right hrest
    rfl
  · rw [takeDots, if_neg (mt (take_two_eq_iff hhead cs).mp hdots)] at hl
    rw [takeDots, if_neg (mt (take_two_eq_iff hhead' cs).mp hdots)]
    obtain ⟨rfl, hrest⟩ := Prod.mk.inj hl
    obtain rfl := List.append_cancel_right hrest
    rfl

omit h in
/-- A literal that goes on with a name does not end in front of it. -/
theorem literalBody_ne (quote : Char) (multiline : Bool) (c : Char) (ds rest : List Char) :
    (literalBody quote multiline ds).2.2 ≠ rest ++ c :: ds := by
  intro hrest
  have happend := literalBody_append quote multiline ds
  rw [hrest] at happend
  have hlength := congrArg List.length happend
  simp only [List.length_append, List.length_cons] at hlength
  omega

/-- The body of a literal that ends in front of the name, closed or not. -/
theorem literalBody_eq {quote : Char} {multiline : Bool} (hquote : isIdentStart quote = false)
    (hslash : quote ≠ '\\') {cs body rest : List Char} {closed : Bool}
    (hbody : literalBody quote multiline (cs ++ tail) = (body, closed, rest ++ tail)) :
    literalBody quote multiline (cs ++ tail') = (body, closed, rest ++ tail') := by
  have hname : ∀ c, isIdentStart c = true → IsPlain quote multiline c := by
    intro c hc
    refine ⟨?_, ?_, ?_⟩
    all_goals
      rintro rfl
      simp_all [isIdentStart]
  -- on the way through `cs`; the cases in which the name is reached are excluded, as the literal
  -- would go on with it
  induction cs using literalBody.induct quote multiline generalizing body with
  | case1 =>
    obtain ⟨c, ds, rfl, hc⟩ := h.name
    rw [List.nil_append, literalBody_plain (hname c hc)] at hbody
    exact absurd (Prod.mk.inj (Prod.mk.inj hbody).2).2 (literalBody_ne quote multiline c ds rest)
  | case2 cs =>
    rw [List.cons_append, literalBody_quote] at hbody ⊢
    simp only [Prod.mk.injEq] at hbody
    obtain ⟨rfl, rfl, hrest⟩ := hbody
    rw [List.append_cancel_right hrest]
  | case3 _ =>
    obtain ⟨c, ds, rfl, hc⟩ := h.name
    have hbreak : c ≠ '\n' := by
      rintro rfl
      contradiction
    rw [List.cons_append, List.nil_append, literalBody_pair hslash hbreak] at hbody
    exact absurd (Prod.mk.inj (Prod.mk.inj hbody).2).2 (literalBody_ne quote multiline c ds rest)
  | case4 cs _ =>
    rw [List.cons_append, List.cons_append, literalBody.eq_def] at hbody ⊢
    simp only [if_neg hslash.symm, if_true, Prod.mk.injEq] at hbody ⊢
    obtain ⟨rfl, rfl, hrest⟩ := hbody
    rw [← List.cons_append] at hrest
    rw [← List.append_cancel_right hrest]
    exact ⟨rfl, rfl, rfl⟩
  | case5 c cs hc _ _ _ _ _ ih =>
    rw [List.cons_append, List.cons_append, literalBody_pair hslash hc] at hbody ⊢
    obtain ⟨rfl, hrest⟩ := Prod.mk.inj hbody
    rw [ih (Prod.ext rfl hrest)]
  | case6 c cs hne hbackslash hline =>
    rw [List.cons_append, literalBody.eq_def] at hbody ⊢
    simp only [if_neg hne, if_neg hbackslash, if_pos hline, Prod.mk.injEq] at hbody ⊢
    obtain ⟨rfl, rfl, hrest⟩ := hbody
    rw [← List.cons_append] at hrest
    rw [← List.append_cancel_right hrest]
    exact ⟨rfl, rfl, rfl⟩
  | case7 c cs hne hbackslash hline _ _ _ _ ih =>
    have hc : IsPlain quote multiline c :=
      ⟨hne, hbackslash, fun hbreak ↦ by simpa [hbreak] using hline⟩
    rw [List.cons_append, literalBody_plain hc] at hbody ⊢
    obtain ⟨rfl, hrest⟩ := Prod.mk.inj hbody
    rw [ih (Prod.ext rfl hrest)]

theorem takeLiteral_eq {kind : TokenKind} {quote : Char} {multiline : Bool}
    (hquote : isIdentStart quote = false) (hslash : quote ≠ '\\') {cs rest : List Char} {l : Lexeme}
    (hl : takeLiteral kind quote multiline (cs ++ tail) = (l, rest ++ tail)) :
    takeLiteral kind quote multiline (cs ++ tail') = (l, rest ++ tail') := by
  rw [takeLiteral] at hl ⊢
  split at hl
  · rename_i body ds heq
    obtain ⟨rfl, rfl⟩ := Prod.mk.inj hl
    rw [h.literalBody_eq hquote hslash heq]
  · rename_i body ds heq
    obtain ⟨rfl, rfl⟩ := Prod.mk.inj hl
    rw [h.literalBody_eq hquote hslash heq]

theorem blockBody_eq_some {cs body rest : List Char}
    (hbody : blockBody (cs ++ tail) = some (body, rest ++ tail)) :
    blockBody (cs ++ tail') = some (body, rest ++ tail') := by
  induction cs generalizing body with
  | nil =>
    obtain ⟨front, rfl⟩ := exists_of_blockBody hbody
    have happend := blockBody_append hbody
    rw [List.nil_append, ← List.append_assoc, List.append_left_eq_self] at happend
    simp at happend
  | cons c cs ih =>
    have hcloses := and_congr_right fun _ : c = '*' ↦
      h.head?_eq_iff (e := '/') rfl (by simp [IsQuote]) cs
    rw [List.cons_append, blockBody] at hbody ⊢
    by_cases hclose : c = '*' ∧ (cs ++ tail).head? = some '/'
    · rw [if_pos hclose] at hbody
      rw [if_pos (hcloses.mpr hclose)]
      cases cs with
      | nil =>
        obtain ⟨d, ds, rfl, hd⟩ := h.name
        obtain rfl : d = '/' := Option.some_inj.mp hclose.2
        contradiction
      | cons d cs =>
        obtain ⟨rfl, hrest⟩ := Prod.mk.inj (Option.some_inj.mp hbody)
        obtain rfl := List.append_cancel_right hrest
        rfl
    · rw [if_neg hclose] at hbody
      rw [if_neg (mt hcloses.mp hclose)]
      obtain ⟨⟨front, behind⟩, hfront, he⟩ := Option.map_eq_some_iff.mp hbody
      obtain ⟨rfl, rfl⟩ := Prod.mk.inj he
      rw [ih hfront, Option.map_some]

theorem blockBody_eq_none {cs : List Char} (hbody : blockBody (cs ++ tail) = none) :
    blockBody (cs ++ tail') = none := by
  induction cs with
  | nil => exact h.block hbody
  | cons c cs ih =>
    have hcloses := and_congr_right fun _ : c = '*' ↦
      h.head?_eq_iff (e := '/') rfl (by simp [IsQuote]) cs
    rw [List.cons_append, blockBody] at hbody ⊢
    split at hbody
    · contradiction
    · rename_i hclose
      rw [if_neg (mt hcloses.mp hclose), ih (Option.map_eq_none_iff.mp hbody), Option.map_none]

theorem regexBody_eq_none {inClass escaped : Bool} {cs : List Char}
    (hbody : regexBody inClass escaped (cs ++ tail) = none) :
    regexBody inClass escaped (cs ++ tail') = none := by
  induction cs generalizing inClass escaped with
  | nil => exact h.regex inClass escaped hbody
  | cons c cs ih =>
    rw [List.cons_append] at hbody ⊢
    rcases regexBody_cons_cases inClass escaped c with hnone | hend | ⟨inClass', escaped', hnext⟩
    · exact hnone _
    · rw [hend] at hbody
      contradiction
    · rw [hnext, onward, Option.map_eq_none_iff] at hbody ⊢
      exact ih hbody

theorem regexRest_eq_some {cs body rest : List Char}
    (hbody : regexRest (cs ++ tail) = some (body, rest ++ tail)) :
    regexRest (cs ++ tail') = some (body, rest ++ tail') := by
  obtain ⟨⟨front, behind⟩, hfront, he⟩ := Option.map_eq_some_iff.mp hbody
  obtain ⟨rfl, hrun⟩ := Prod.mk.inj he
  obtain ⟨ds, rfl⟩ : ∃ ds, behind = ds ++ tail := by
    refine ⟨behind.takeWhile Char.isAlpha ++ rest, ?_⟩
    rw [List.append_assoc, ← hrun, List.takeWhile_append_dropWhile]
  have hp : ∀ c d, isIdentStart c = true → IsQuote d → c.isAlpha = false → d.isAlpha = false := by
    rintro c d - (rfl | rfl) - <;> rfl
  obtain ⟨htake, hdrop⟩ := h.run hp hrun
  rw [regexRest, regexBody_append_tail hfront, Option.map_some]
  dsimp only
  rw [htake, hdrop]

theorem takeSlash_eq {previous : Option Lexeme} {cs rest : List Char} {l : Lexeme}
    (hl : takeSlash previous (cs ++ tail) = (l, rest ++ tail)) :
    takeSlash previous (cs ++ tail') = (l, rest ++ tail') := by
  rw [takeSlash] at hl ⊢
  split at hl
  · rename_i hallows
    rw [if_pos hallows]
    split at hl
    · rename_i body ds heq
      obtain ⟨rfl, rfl⟩ := Prod.mk.inj hl
      rw [h.regexRest_eq_some heq]
    · rename_i heq
      obtain ⟨rfl, hrest⟩ := Prod.mk.inj hl
      have hnone : regexRest (cs ++ tail') = none := by
        rw [regexRest, Option.map_eq_none_iff] at heq ⊢
        exact h.regexBody_eq_none heq
      rw [hnone, List.append_cancel_right hrest]
  · rename_i hallows
    obtain ⟨rfl, hrest⟩ := Prod.mk.inj hl
    rw [if_neg hallows, List.append_cancel_right hrest]

theorem takeSlashed_eq {previous : Option Lexeme} {cs rest : List Char} {l : Lexeme}
    (hl : takeSlashed previous (cs ++ tail) = (l, rest ++ tail)) :
    takeSlashed previous (cs ++ tail') = (l, rest ++ tail') := by
  have hline := h.head?_eq_iff (e := '/') rfl (by simp [IsQuote]) cs
  have hblock := h.head?_eq_iff (e := '*') rfl (by simp [IsQuote]) cs
  rw [takeSlashed] at hl ⊢
  by_cases hhead : (cs ++ tail).head? = some '/'
  · rw [if_pos hhead] at hl
    rw [if_pos (hline.mpr hhead)]
    refine h.takeRun_eq ?_ hl
    rintro c d hc - hbreak
    obtain rfl : c = '\n' := by simpa using hbreak
    contradiction
  rw [if_neg hhead] at hl
  rw [if_neg (mt hline.mp hhead)]
  by_cases hhead' : (cs ++ tail).head? = some '*'
  · rw [if_pos hhead'] at hl
    rw [if_pos (hblock.mpr hhead')]
    cases cs with
    | nil =>
      obtain ⟨d, ds, rfl, hd⟩ := h.name
      obtain rfl : d = '*' := Option.some_inj.mp hhead'
      contradiction
    | cons d cs =>
      have hslash : takeSlash previous (d :: cs ++ tail) = (l, rest ++ tail) →
          takeSlash previous (d :: cs ++ tail') = (l, rest ++ tail') := h.takeSlash_eq
      rw [List.cons_append, List.tail_cons] at hl ⊢
      split at hl
      · rename_i body ds heq
        obtain ⟨rfl, rfl⟩ := Prod.mk.inj hl
        rw [h.blockBody_eq_some heq]
      · rename_i heq
        rw [h.blockBody_eq_none heq]
        exact hslash hl
  · rw [if_neg hhead'] at hl
    rw [if_neg (mt hblock.mp hhead')]
    exact h.takeSlash_eq hl

/-- **A lexeme that ends in front of the one text** ends in front of the other. -/
theorem step_eq {previous : Option Lexeme} {c : Char} {cs rest : List Char} {l : Lexeme}
    (hl : step previous c (cs ++ tail) = (l, rest ++ tail)) :
    step previous c (cs ++ tail') = (l, rest ++ tail') := by
  have hrun : ∀ {p : Char → Bool}, p '"' = false → p '\x27' = false → ∀ c d,
      isIdentStart c = true → IsQuote d → p c = false → p d = false := by
    rintro p hdouble hsingle c d - (rfl | rfl) -
    · exact hdouble
    · exact hsingle
  cases stepForm c with
  | single k hstep =>
    rw [hstep] at hl ⊢
    obtain ⟨rfl, hrest⟩ := Prod.mk.inj hl
    rw [List.append_cancel_right hrest]
  | dots hstep =>
    rw [hstep] at hl ⊢
    exact h.takeDots_eq hl
  | slash hstep =>
    rw [hstep] at hl ⊢
    exact h.takeSlashed_eq hl
  | literal k multiline hc hstep =>
    rw [hstep] at hl ⊢
    simp only [List.mem_cons, List.not_mem_nil, or_false] at hc
    rcases hc with rfl | rfl | rfl <;> exact h.takeLiteral_eq (by decide) (by decide) hl
  | operator hstep =>
    rw [hstep] at hl ⊢
    exact h.takeOperator_eq hl
  | ident _ hstep =>
    rw [hstep] at hl ⊢
    exact h.takeRun_eq (hrun rfl rfl) hl
  | number hstep =>
    rw [hstep] at hl ⊢
    exact h.takeRun_eq (hrun rfl rfl) hl
  | blank hstep =>
    rw [hstep] at hl ⊢
    exact h.takeRun_eq (hrun rfl rfl) hl

/-- **Lexemes in front of the one text** are also cut in front of the other. -/
theorem pieces_eq {before ls : List Lexeme} {previous : Option Lexeme}
    (hbefore : pieces previous (before.flatMap Lexeme.text ++ tail) = before ++ ls) :
    pieces previous (before.flatMap Lexeme.text ++ tail') =
      before ++ pieces ((lastSignificant before).or previous) tail' := by
  refine pieces_behind ?_
  induction before generalizing previous with
  | nil => exact List.nil_prefix
  | cons l before ih =>
    obtain ⟨c, ds, rest, hds, hcs, hstep, hrest⟩ := exists_of_pieces_eq_cons hbefore
    rw [List.flatMap_cons, List.append_assoc] at hcs hds
    obtain rfl := List.append_cancel_left hcs
    obtain ⟨d, cs, hl⟩ := List.exists_cons_of_ne_nil
      (text_ne_nil_of_mem_pieces previous _ l (by rw [hbefore]; exact List.mem_cons_self))
    rw [hl, List.cons_append, ← List.append_assoc] at hds
    obtain ⟨rfl, rfl⟩ := List.cons.inj hds
    rw [List.flatMap_cons, hl, List.cons_append, List.cons_append, pieces, h.step_eq hstep,
      List.cons_prefix_cons]
    exact ⟨rfl, ih hrest⟩

end Exchange

end Concord.Script
