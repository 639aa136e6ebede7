import Concord.Proofs.Script.Exchange

/-!
# Putting a key in quotes

A name in front of a colon may be put in quotes: the lexer cuts the same lexemes in front of it and
behind it, and a string in its place.

* `pieces_of_colon` — in front of a colon it makes no difference what is behind, as nothing there
  divides.
* `pieces_quoted` — the lexemes of a text with such a name in quotes.
* `tokenize_quoted` — the tokens; those behind the name move.
-/

set_option autoImplicit false

namespace Concord.Script

/-! ## What is behind -/

theorem takeSlashed_cases (previous : Option Lexeme) (cs : List Char) :
    (∀ previous', takeSlashed previous' cs = takeSlashed previous cs) ∨
      takeSlashed previous cs = takeSlash previous cs := by
  unfold takeSlashed
  split
  · exact .inl fun _ ↦ rfl
  · split
    · split
      · exact .inl fun _ ↦ rfl
      · exact .inr rfl
    · exact .inr rfl

/-- What is behind makes no difference to a lexeme that does not divide and is no regular
expression. -/
theorem step_of_kind_ne {previous : Option Lexeme} {c : Char} {cs : List Char}
    (hslash : (step previous c cs).1.kind ≠ .slash) (hregex : (step previous c cs).1.kind ≠ .regex)
    (previous' : Option Lexeme) : step previous' c cs = step previous c cs := by
  cases stepForm c with
  | single k hstep => rw [hstep, hstep]
  | dots hstep => rw [hstep, hstep]
  | literal k multiline hc hstep => rw [hstep, hstep]
  | operator hstep => rw [hstep, hstep]
  | ident _ hstep => rw [hstep, hstep]
  | number hstep => rw [hstep, hstep]
  | blank hstep => rw [hstep, hstep]
  | slash hstep =>
    rw [hstep] at hslash hregex
    rw [hstep, hstep]
    rcases takeSlashed_cases previous cs with hsame | htake
    · exact hsame previous'
    · rw [htake, takeSlash] at hslash hregex
      split at hslash
      · split at hslash <;> simp_all
      · exact absurd rfl hslash

/-- **In front of a colon** it makes no difference what is behind. -/
theorem pieces_of_colon {previous : Option Lexeme} {cs : List Char} {front back : List Lexeme}
    {colon : Lexeme} (hfront : ∀ l ∈ front, l.kind.isTrivia = true) (hcolon : colon.kind = .colon)
    (h : pieces previous cs = front ++ colon :: back) (previous' : Option Lexeme) :
    pieces previous' cs = pieces previous cs := by
  have hsame : ∀ {c ds rest} {l : Lexeme}, step previous c ds = (l, rest) → l.kind ≠ .slash →
      l.kind ≠ .regex → step previous' c ds = (l, rest) := by
    intro c ds rest l hstep hslash hregex
    rw [step_of_kind_ne (by rwa [hstep]) (by rwa [hstep]), hstep]
  -- trivia are passed over, and from the colon on both texts have the colon behind
  induction front generalizing cs with
  | nil =>
    obtain ⟨c, ds, rest, rfl, -, hstep, -⟩ := exists_of_pieces_eq_cons h
    have hafter : ∀ p, previousAfter p colon = some colon := by
      intro p
      rw [previousAfter, hcolon]
      rfl
    rw [pieces, pieces, hstep, hsame hstep (by simp [hcolon]) (by simp [hcolon]), hafter, hafter]
  | cons l front ih =>
    obtain ⟨hl, hfront⟩ := List.forall_mem_cons.mp hfront
    obtain ⟨c, ds, rest, rfl, -, hstep, hrest⟩ := exists_of_pieces_eq_cons h
    have hne : ∀ k, k.isTrivia = false → l.kind ≠ k := by
      rintro k hk rfl
      rw [hl] at hk
      contradiction
    have hafter : ∀ p, previousAfter p l = p := fun p ↦ by rw [previousAfter, if_pos hl]
    rw [hafter] at hrest
    rw [pieces, pieces, hstep, hsame hstep (hne .slash rfl) (hne .regex rfl), hafter, hafter,
      ih hfront hrest]

/-! ## A name in quotes -/

/-- A name is a character that can begin one, and others. -/
theorem exists_of_step_ident {previous : Option Lexeme} {c : Char} {cs : List Char}
    (h : (step previous c cs).1.kind = .ident) :
    isIdentStart c = true ∧ ∃ ds, (step previous c cs).1.text = c :: ds ∧
      ∀ d ∈ ds, isIdentPart d = true := by
  cases stepForm c with
  | single k hstep hk =>
    rw [hstep] at h
    exact absurd h hk
  | dots hstep =>
    rw [hstep, takeDots] at h
    split at h <;> contradiction
  | slash hstep =>
    rw [hstep, takeSlashed, takeSlash] at h
    repeat' split at h
    all_goals contradiction
  | literal k multiline hc hstep hk =>
    rw [hstep, takeLiteral] at h
    split at h
    · exact absurd h hk
    · contradiction
  | operator hstep =>
    rw [hstep, takeOperator] at h
    dsimp only at h
    split at h <;> contradiction
  | ident hc hstep =>
    rw [hstep]
    exact ⟨hc, _, rfl, List.all_eq_true.mp List.all_takeWhile⟩
  | number hstep =>
    rw [hstep] at h
    contradiction
  | blank hstep =>
    rw [hstep] at h
    contradiction

/-- What is joined to trivia is trivia. -/
theorem isTrivia_of_joinGarbage {ls : List Lexeme}
    (h : ∀ l ∈ joinGarbage ls, l.kind.isTrivia = true) : ∀ l ∈ ls, l.kind.isTrivia = true := by
  induction ls with
  | nil => exact h
  | cons l ls ih =>
    rcases joinGarbage_cons_cases l ls with hjoin | ⟨text, ms, -, hjoin⟩
    · rw [hjoin] at h
      obtain ⟨hl, hls⟩ := List.forall_mem_cons.mp h
      exact List.forall_mem_cons.mpr ⟨hl, ih hls⟩
    · rw [hjoin] at h
      exact absurd (h _ List.mem_cons_self) (by simp [TokenKind.isTrivia])

/-- The lexeme of a name that has been put in quotes. -/
def inQuotes (quote : Char) (name : Lexeme) : Lexeme :=
  ⟨.string, quote :: (name.text ++ [quote])⟩

theorem escaped_of_isIdentPart {quote : Char} (hquote : IsQuote quote) {cs : List Char}
    (hcs : ∀ c ∈ cs, isIdentPart c = true) : Escaped (IsPlain quote false) (· ≠ '\n') cs := by
  induction cs with
  | nil => exact .nil
  | cons c cs ih =>
    obtain ⟨hc, hcs⟩ := List.forall_mem_cons.mp hcs
    have hne : ∀ d, isIdentPart d = false → c ≠ d := by
      rintro d hd rfl
      rw [hc] at hd
      contradiction
    refine .plain ⟨hne quote ?_, hne _ rfl, fun hbreak ↦ absurd hbreak (hne _ rfl)⟩ (ih hcs)
    rcases hquote with rfl | rfl <;> rfl

/-- **A key that is put in quotes** is the only lexeme that changes. -/
theorem pieces_quoted {quote : Char} (hquote : IsQuote quote) {cs : List Char}
    {before gap back : List Lexeme} {name colon : Lexeme} (hname : name.kind = .ident)
    (hgap : ∀ l ∈ gap, l.kind.isTrivia = true) (hcolon : colon.kind = .colon)
    (h : pieces none cs = before ++ name :: (gap ++ colon :: back)) :
    pieces none (before.flatMap Lexeme.text ++ quote :: (name.text ++ quote ::
      (gap ++ colon :: back).flatMap Lexeme.text)) =
      before ++ inQuotes quote name :: (gap ++ colon :: back) := by
  have hcs := flatMap_text_pieces none cs
  rw [h, List.flatMap_append, List.flatMap_cons] at hcs
  rw [← hcs] at h
  have hbehind := pieces_behind (h ▸ List.prefix_append before _)
  rw [h] at hbehind
  -- the step that cuts the name, and what is cut behind it
  obtain ⟨c, ds, rest, hds, hrest, hstep, hpieces⟩ :=
    exists_of_pieces_eq_cons (List.append_cancel_left hbehind).symm
  obtain rfl := List.append_cancel_left hrest
  obtain ⟨hc, es, hes, hparts⟩ := exists_of_step_ident (by rwa [hstep])
  rw [hstep] at hes
  have hexchange := Exchange.quoted hquote hc hparts ((gap ++ colon :: back).flatMap Lexeme.text)
  rw [← List.cons_append, ← hes] at hexchange
  have hname' : ∀ d ∈ name.text, isIdentPart d = true := by
    rw [hes]
    exact List.forall_mem_cons.mpr ⟨isIdentPart_of_isIdentStart hc, hparts⟩
  rw [hexchange.pieces_eq h, pieces, step_quote hquote,
    takeLiteral_eq (ne_backslash_of_quote hquote) (escaped_of_isIdentPart hquote hname')]
  dsimp only
  rw [pieces_of_colon hgap hcolon hpieces, hpieces]
  rfl

/-! ## Tokens -/

theorem Token.placeAll_eq_append_cons {start : Nat} {ls : List Lexeme} {before after : List Token}
    {t : Token} (h : Token.placeAll start ls = before ++ t :: after) :
    ls = before.map Token.toLexeme ++ t.toLexeme :: after.map Token.toLexeme ∧
      before = Token.placeAll start (before.map Token.toLexeme) ∧
        t.start = start + utf8Length ((before.map Token.toLexeme).flatMap Lexeme.text) := by
  have hls : ls = before.map Token.toLexeme ++ t.toLexeme :: after.map Token.toLexeme := by
    rw [← Token.map_toLexeme_placeAll start ls, h, List.map_append, List.map_cons]
  rw [hls, Token.placeAll_append] at h
  have hlength : (Token.placeAll start (before.map Token.toLexeme)).length = before.length := by
    rw [← List.length_map Token.toLexeme, Token.map_toLexeme_placeAll, List.length_map]
  obtain ⟨hbefore, hrest⟩ := List.append_inj h hlength
  exact ⟨hls, hbefore.symm, (congrArg Token.start (List.cons.inj hrest).1).symm⟩

/-- A place in a text cuts it in one way. -/
theorem eq_of_utf8Length_eq {front front' back back' : List Char}
    (h : front ++ back = front' ++ back') (hlength : utf8Length front = utf8Length front') :
    front = front' := by
  have hcut : ∀ {as bs : List Char}, as <+: bs → utf8Length as = utf8Length bs → as = bs := by
    rintro as _ ⟨cs, rfl⟩ heq
    rw [utf8Length_append] at heq
    cases cs with
    | nil => exact (List.append_nil as).symm
    | cons c cs =>
      have hpos := utf8Length_pos (List.cons_ne_nil c cs)
      omega
  rcases List.prefix_or_prefix_of_prefix (List.prefix_append front back)
    (h ▸ List.prefix_append front' back') with hle | hle
  · exact hcut hle hlength
  · exact (hcut hle hlength.symm).symm

/-- **A key that is put in quotes** is the only token that changes; those behind it move. -/
theorem tokenize_quoted {quote : Char} (hquote : IsQuote quote) {source : String}
    {front back : List Char} {before after : List Token} {key colon : Token}
    (htokens : tokenize source = before ++ key :: colon :: after) (hkey : key.kind = .ident)
    (hcolon : colon.kind = .colon) (hsource : source.toList = front ++ (key.text ++ back))
    (hfront : utf8Length front = key.start) :
    ∃ rest, tokenize (String.ofList (front ++ quote :: (key.text ++ quote :: back))) =
        before ++ ⟨inQuotes quote key.toLexeme, key.start⟩ :: rest ∧
      rest.map Token.toLexeme = (colon :: after).map Token.toLexeme := by
  have hlexemes : ∀ ts : List Token, (ts.filter (!·.kind.isTrivia)).map Token.toLexeme =
      (ts.map Token.toLexeme).filter (!·.kind.isTrivia) := by
    intro ts
    rw [List.filter_map]
    rfl
  -- the tokens together with the trivia between them
  obtain ⟨far, _, hplaced, hfar, hnear⟩ := List.filter_eq_append_iff.mp htokens
  obtain ⟨near, _, rfl, hskipped, -, hbehind⟩ := List.filter_eq_cons_iff.mp hnear
  obtain ⟨gap, ts, hgapped, hgap, -, -⟩ := List.filter_eq_cons_iff.mp hbehind
  have hpassed : (far ++ near).filter (!·.kind.isTrivia) = before := by
    rw [List.filter_append, hfar, List.filter_eq_nil_iff.mpr hskipped, List.append_nil]
  rw [← List.append_assoc] at hplaced
  obtain ⟨hscan, hplaces, hstart⟩ := Token.placeAll_eq_append_cons hplaced
  -- the lexemes before garbage is joined
  obtain ⟨ls, _, hpieces, hls, hjoin⟩ := exists_of_joinGarbage_eq (by simp [hkey]) hscan
  have hjoin' := hjoin
  rw [hgapped, List.map_append, List.map_cons] at hjoin'
  obtain ⟨ms, ns, rfl, hms, -⟩ := exists_of_joinGarbage_eq (by simp [hcolon]) hjoin'
  have htrivia : ∀ l ∈ ms, l.kind.isTrivia = true := by
    refine isTrivia_of_joinGarbage ?_
    rw [hms]
    simpa using hgap
  have hquoted := pieces_quoted hquote hkey htrivia hcolon hpieces
  have hcs := flatMap_text_pieces none source.toList
  rw [hpieces, List.flatMap_append, List.flatMap_cons, hsource] at hcs
  rw [← hls, flatMap_text_joinGarbage, Nat.zero_add] at hstart
  have hfronts : ls.flatMap Lexeme.text = front := eq_of_utf8Length_eq hcs (by rw [hfront, hstart])
  subst hfronts
  obtain rfl := List.append_cancel_left (List.append_cancel_left hcs)
  refine ⟨(Token.placeAll (key.start + utf8Length (inQuotes quote key.toLexeme).text)
    (joinGarbage (ms ++ colon.toLexeme :: ns))).filter (!·.kind.isTrivia), ?_, ?_⟩
  · rw [tokenize, scan, String.toList_ofList, hquoted, joinGarbage_append_cons (by simp [inQuotes]),
      Token.placeAll_append, flatMap_text_joinGarbage, Nat.zero_add, hfront, hls, ← hplaces,
      List.filter_append, hpassed]
    rfl
  · rw [hlexemes, Token.map_toLexeme_placeAll, hjoin, ← hlexemes, hbehind]

end Concord.Script
