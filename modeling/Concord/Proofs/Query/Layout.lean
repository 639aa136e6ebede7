import Concord.Proofs.Language
import Concord.Proofs.Query.Abstract

/-!
# Written queries

To write a query, one writes its pieces one behind the other, with any blanks, line breaks and
comments between them.  Only where a piece would go on with the first character of the next one
must there be something between the two.

* `Rendering ps text` says that `text` is written so from the pieces `ps`.
* `Rendering.cuts` — such a text is cut into these pieces again, blanks and comments aside.
* `Abstract.standalone_item` — the pieces of which a pattern is written are pieces of the lexer.
* `Abstract.Written items text` says that the text is a way to write some patterns, and
  `Abstract.significant_of_written` what its significant lexemes are.
-/

set_option autoImplicit false

namespace Concord.Query

/-! ## Texts from pieces -/

/-- What may stand between two pieces: blanks, line breaks, and comments with the line breaks that
end them. -/
inductive Gap : List Char → Prop where
  | nil : Gap []
  | blank {c : Char} {g : List Char} (hc : isBlank c = true) (h : Gap g) : Gap (c :: g)
  | newline {g : List Char} (h : Gap g) : Gap ('\n' :: g)
  | comment {body g : List Char} (hbody : ∀ c ∈ body, c ≠ '\n') (h : Gap g) :
    Gap (';' :: (body ++ '\n' :: g))

/-- The text is written from the pieces, with a gap behind each of them.  The gap may be empty,
unless the piece would go on with what comes next.  The last line may be a comment. -/
inductive Rendering : List Piece → List Char → Prop where
  | nil : Rendering [] []
  | comment {body : List Char} (hbody : ∀ c ∈ body, c ≠ '\n') : Rendering [] (';' :: body)
  | cons {p : Piece} {ps : List Piece} {g text : List Char} (hg : Gap g)
    (hfuse : g = [] → ∀ c ∈ text.head?, p.absorbs c = false) (h : Rendering ps text) :
    Rendering (p :: ps) (p.text ++ (g ++ text))

/-! ## Cutting them again -/

/-- Whether the lexemes of a piece are significant. -/
def Piece.isSignificant : Piece → Bool
  | .lexeme kind _ => !kind.isTrivia
  | .literal _ | .unmatched _ => true

/-- All of the text is matched by tokens, and the significant pieces are these. -/
structure Cuts (text : List Char) (ps : List Piece) : Prop where
  matched : ∀ p ∈ pieces text, p.isMatched = true
  significant : (pieces text).filter Piece.isSignificant = ps

theorem cuts_nil : Cuts [] [] := by
  constructor
  · simp [pieces_nil]
  · rw [pieces_nil, List.filter_nil]

/-- A piece of trivia in front of a text adds nothing. -/
theorem Cuts.trivia {text rest : List Char} {ps : List Piece} {kind : TokenKind}
    {front : List Char} (h : Cuts rest ps) (hkind : kind.isTrivia = true)
    (hpieces : pieces text = .lexeme kind front :: pieces rest) : Cuts text ps := by
  constructor
  · intro p hp
    rw [hpieces] at hp
    rcases List.mem_cons.mp hp with rfl | hp
    · rfl
    · exact h.matched p hp
  · rw [hpieces, List.filter_cons_of_neg (by simp [Piece.isSignificant, hkind])]
    exact h.significant

theorem pieces_newline (text : List Char) :
    pieces ('\n' :: text) = .lexeme .newline ['\n'] :: pieces text := by
  have hstep : step '\n' text = (.lexeme .newline ['\n'], text) := rfl
  rw [pieces_cons, hstep]

theorem pieces_blank {c : Char} (hc : isBlank c = true) (text : List Char) :
    pieces (c :: text) =
      .lexeme .blank (c :: text.takeWhile isBlank) :: pieces (text.dropWhile isBlank) := by
  have hstep : step c text = takeRun .blank c isBlank text := by
    simp only [isBlank, Bool.or_eq_true, beq_iff_eq] at hc
    obtain (rfl | rfl) | rfl := hc <;> rfl
  rw [pieces_cons, hstep, takeRun]

/-- A blank in front of a text is joined to those that follow it. -/
theorem Cuts.blank {text : List Char} {ps : List Piece} (h : Cuts text ps) {c : Char}
    (hc : isBlank c = true) : Cuts (c :: text) ps := by
  have hdrop : Cuts (text.dropWhile isBlank) ps := by
    cases text with
    | nil => exact h
    | cons d text =>
      by_cases hd : isBlank d = true
      · have hpieces := pieces_blank hd text
        rw [List.dropWhile_cons_of_pos hd]
        constructor
        · exact fun p hp ↦ h.matched p (by rw [hpieces]; exact List.mem_cons_of_mem _ hp)
        · rw [← h.significant, hpieces, List.filter_cons_of_neg]
          simp [Piece.isSignificant, TokenKind.isTrivia]
      · rwa [List.dropWhile_cons_of_neg hd]
  exact hdrop.trivia rfl (pieces_blank hc text)

theorem pieces_comment {body : List Char} (hbody : ∀ c ∈ body, c ≠ '\n') (text : List Char)
    (htext : ∀ c ∈ text.head?, c = '\n') :
    pieces (';' :: (body ++ text)) = .lexeme .comment (';' :: body) :: pieces text := by
  obtain ⟨htake, hdrop⟩ : (body ++ text).takeWhile (· != '\n') = body ∧
      (body ++ text).dropWhile (· != '\n') = text :=
    run_eq (by simpa using hbody) (by simpa using htext)
  have hstep : step ';' (body ++ text) = takeRun .comment ';' (· != '\n') (body ++ text) := rfl
  rw [pieces_cons, hstep, takeRun, htake, hdrop]

/-- A gap in front of a text adds nothing. -/
theorem Cuts.gap {g text : List Char} {ps : List Piece} (hg : Gap g) (h : Cuts text ps) :
    Cuts (g ++ text) ps := by
  induction hg with
  | nil => exact h
  | blank hc _ ih => exact ih.blank hc
  | newline _ ih => exact ih.trivia rfl (pieces_newline _)
  | @comment body g hbody _ ih =>
    have hline : Cuts ('\n' :: (g ++ text)) ps := ih.trivia rfl (pieces_newline _)
    have hpieces := pieces_comment hbody ('\n' :: (g ++ text)) (by simp)
    rw [List.cons_append, List.append_assoc, List.cons_append]
    exact hline.trivia rfl hpieces

/-- The piece is what the lexer makes of its text, and it is a token of its own. -/
structure Piece.Standalone (p : Piece) : Prop where
  pieces_eq : pieces p.text = [p]
  matched : p.isMatched = true
  significant : p.isSignificant = true

/-- A token does not go on with what begins a gap. -/
theorem Piece.Standalone.absorbs_head {p : Piece} (hp : p.Standalone) {g : List Char}
    (hg : Gap g) : ∀ c ∈ g.head?, p.absorbs c = false := by
  have hchar : ∀ c ∈ g.head?, c ∈ [' ', '\t', '\r', '\n', ';'] := by
    cases hg with
    | nil => simp
    | blank hc _ =>
      simp only [isBlank, Bool.or_eq_true, beq_iff_eq] at hc
      obtain (rfl | rfl) | rfl := hc <;> simp
    | newline _ => simp
    | comment _ _ => simp
  intro c hc
  have hc := hchar c hc
  obtain ⟨hident, hpredicate⟩ :
      isIdentPart c = false ∧ (isPredicatePart c || isMark c) = false := by
    simp only [List.mem_cons, List.not_mem_nil, or_false] at hc
    rcases hc with rfl | rfl | rfl | rfl | rfl <;> decide
  have hmatched := hp.matched
  have hsignificant := hp.significant
  cases p with
  | unmatched text => contradiction
  | literal body => rfl
  | lexeme kind text =>
    cases kind
    case ident | underscore | captureName => exact hident
    case predicateName => rw [absorbs, hpredicate, Bool.and_false]
    case blank | comment => contradiction
    all_goals rfl

/-- **A text that is written from tokens is cut into these tokens.** -/
theorem Rendering.cuts {ps : List Piece} {text : List Char} (h : Rendering ps text)
    (hps : ∀ p ∈ ps, p.Standalone) : Cuts text ps := by
  induction h with
  | nil => exact cuts_nil
  | @comment body hbody =>
    have hpieces := pieces_comment hbody [] (by simp)
    rw [List.append_nil] at hpieces
    exact cuts_nil.trivia rfl hpieces
  | @cons p ps g text hg hfuse _ ih =>
    have hp := hps p List.mem_cons_self
    have hrest : Cuts (g ++ text) ps :=
      (ih fun q hq ↦ hps q (List.mem_cons_of_mem p hq)).gap hg
    have hnext : ∀ c ∈ (g ++ text).head?, p.absorbs c = false := by
      cases g with
      | nil => exact hfuse rfl
      | cons d g => exact fun c hc ↦ hp.absorbs_head hg c hc
    have hpieces : pieces (p.text ++ (g ++ text)) = p :: pieces (g ++ text) := by
      rw [pieces_append, hp.pieces_eq, List.singleton_append]
      · simpa [hp.pieces_eq] using hp.matched
      · simpa [hp.pieces_eq] using hnext
    constructor
    · intro q hq
      rw [hpieces] at hq
      rcases List.mem_cons.mp hq with rfl | hq
      · exact hp.matched
      · exact hrest.matched q hq
    · rw [hpieces, List.filter_cons_of_pos hp.significant, hrest.significant]

/-! ## Lexemes -/

theorem joinUnmatched_eq_self {ps : List Piece} (h : ∀ p ∈ ps, p.isMatched = true) :
    joinUnmatched ps = ps := by
  have happend := joinUnmatched_append h []
  rwa [List.append_nil, joinUnmatched, List.append_nil] at happend

theorem filter_lexemes (p : Piece) :
    p.lexemes.filter (!·.kind.isTrivia) = if p.isSignificant then p.lexemes else [] := by
  cases p with
  | lexeme kind text =>
    cases h : kind.isTrivia <;> simp [Piece.lexemes, Piece.isSignificant, h]
  | literal body => cases body <;> rfl
  | unmatched text => rfl

/-- The significant lexemes of a text are those of its significant pieces. -/
theorem Cuts.significant_eq {text : String} {ps : List Piece} (h : Cuts text.toList ps) :
    Query.significant text = ps.flatMap Piece.lexemes := by
  have hfilter : ∀ qs : List Piece, (qs.flatMap Piece.lexemes).filter (!·.kind.isTrivia) =
      (qs.filter Piece.isSignificant).flatMap Piece.lexemes := by
    intro qs
    induction qs with
    | nil => rfl
    | cons q qs ih =>
      rw [List.flatMap_cons, List.filter_append, ih, filter_lexemes, List.filter_cons]
      split <;> simp
  rw [significant_eq_filter, scan, joinUnmatched_eq_self h.matched, hfilter, h.significant]

/-! ## The pieces of patterns -/

namespace Abstract

theorem standalone_of_step {p : Piece} {c : Char} {cs : List Char} (htext : p.text = c :: cs)
    (hstep : step c cs = (p, [])) (hmatched : p.isMatched = true)
    (hsignificant : p.isSignificant = true) : p.Standalone := by
  refine ⟨?_, hmatched, hsignificant⟩
  rw [htext, pieces_cons, hstep, pieces_nil]

/-- A character that begins an identifier begins nothing else. -/
theorem step_ident {c : Char} (hc : isIdentStart c = true) (cs : List Char) :
    step c cs = takeIdent c cs := by
  have hdefault : c ∉ singles ++ openers := by
    intro hmem
    have hnone : (singles ++ openers).any isIdentStart = false := by decide
    have hsome : (singles ++ openers).any isIdentStart = true :=
      List.any_eq_true.mpr ⟨c, hmem, hc⟩
    rw [hnone] at hsome
    contradiction
  have hblank : isBlank c = false := by
    rw [Bool.eq_false_iff]
    intro hblank
    simp only [isBlank, Bool.or_eq_true, beq_iff_eq] at hblank
    obtain (rfl | rfl) | rfl := hblank <;> contradiction
  rw [step_default hdefault, hblank, if_neg Bool.false_ne_true, if_pos hc]

theorem standalone_label (l : Label) : l.piece.Standalone := by
  obtain ⟨htake, hdrop⟩ : (l.rest ++ []).takeWhile isIdentPart = l.rest ∧
      (l.rest ++ []).dropWhile isIdentPart = [] := run_eq l.rest_ok (by simp)
  rw [List.append_nil] at htake hdrop
  have hstep : step l.first l.rest = (l.piece, []) := by
    rw [step_ident l.first_ok, takeIdent, htake, hdrop]
    rfl
  refine standalone_of_step rfl hstep rfl ?_
  rw [Label.piece]
  split <;> rfl

theorem standalone_name (n : Name) : n.piece.Standalone := by
  have h := standalone_label n.label
  rwa [Label.piece, if_neg n.ne_underscore] at h

theorem standalone_captureName (n : CaptureName) : n.piece.Standalone := by
  obtain ⟨htake, hdrop⟩ : (n.rest ++ []).takeWhile isIdentPart = n.rest ∧
      (n.rest ++ []).dropWhile isIdentPart = [] := run_eq n.rest_ok (by simp)
  rw [List.append_nil] at htake hdrop
  have htext : n.piece.text = '@' :: n.text := rfl
  have hstep : step '@' n.text = takeCaptureName (n.first :: n.rest) := rfl
  refine standalone_of_step htext ?_ rfl rfl
  rw [hstep, takeCaptureName, if_pos n.first_ok, htake, hdrop]
  rfl

theorem standalone_predicateName (n : PredicateName) : n.piece.Standalone := by
  have hmark : ∀ c ∈ n.mark.toList.head?, isPredicatePart c = false := by
    intro c hc
    rw [Option.head?_toList] at hc
    rw [Bool.eq_false_iff]
    intro hpart
    have hnot := isMark_of_isPredicatePart hpart
    rw [n.mark_ok c hc] at hnot
    contradiction
  obtain ⟨htake, hdrop⟩ := run_eq n.word.rest_ok hmark
  have hsplit : splitMark n.mark.toList = (n.mark.toList, []) := by
    cases h : n.mark with
    | none => rfl
    | some c =>
      have hc := n.mark_ok c h
      simp only [isMark, Bool.or_eq_true, beq_iff_eq] at hc
      rw [Option.toList_some, splitMark, if_pos hc]
  have htext : n.piece.text = '#' :: (n.word.text ++ n.mark.toList) := rfl
  have hstep : step '#' (n.word.text ++ n.mark.toList) =
      takePredicateName (n.word.first :: (n.word.rest ++ n.mark.toList)) := rfl
  refine standalone_of_step htext ?_ rfl rfl
  rw [hstep, takePredicateName, if_pos n.word.first_ok, htake, hdrop, hsplit]
  rfl

theorem standalone_repeat (r : Repeat) : r.piece.Standalone := by
  cases r <;> exact standalone_of_step rfl rfl rfl rfl

/-! ### Strings -/

/-- The literal of a spelled value ends at its closing quote. -/
theorem Spells.literalBody_eq {raw value : List Char} (h : Spells raw value) (tail : List Char) :
    literalBody '"' true (raw ++ '"' :: tail) = (raw, true, tail) := by
  induction h with
  | nil => simp [literalBody.eq_def]
  | plain hquote hslash _ ih =>
    rw [List.cons_append, literalBody.eq_def]
    dsimp only
    rw [if_neg hquote, if_neg hslash, if_neg (by simp), ih]
  | escaped hbreak _ ih =>
    rw [List.cons_append, List.cons_append, literalBody, if_neg (by decide), if_pos rfl,
      if_neg hbreak, ih]

theorem standalone_literal {raw value : List Char} (h : Spells raw value) :
    (Piece.literal raw).Standalone := by
  have htext : (Piece.literal raw).text = '"' :: (raw ++ ['"']) := rfl
  have hstep : step '"' (raw ++ ['"']) = takeLiteral (raw ++ ['"']) := rfl
  refine standalone_of_step htext ?_ rfl rfl
  rw [hstep, takeLiteral, h.literalBody_eq []]

/-- Reading a spelling gives back the value. -/
theorem Spells.unescape_eq {raw value : List Char} (h : Spells raw value) :
    unescape raw = value := by
  induction h with
  | nil => rfl
  | plain _ hslash _ ih => rw [unescape.eq_def]; simp [hslash, ih]
  | escaped _ _ ih => rw [unescape, if_pos rfl, ih]

/-! ### Items -/

theorem standalone_literals (value : String) : EachLetter Piece.Standalone (literals value) := by
  rintro w ⟨raw, hraw, rfl⟩ p hp
  rw [List.mem_singleton.mp hp]
  exact standalone_literal hraw

theorem standalone_arg (a : Arg) : EachLetter Piece.Standalone a.spellings := by
  cases a with
  | capture name => exact eachLetter_singleton (by simpa using standalone_captureName name)
  | str value => exact standalone_literals value
  | ident label => exact eachLetter_singleton (by simpa using standalone_label label)

theorem standalone_args (as : List Arg) : EachLetter Piece.Standalone (Arg.spellingsAll as) := by
  induction as with
  | nil => exact eachLetter_one
  | cons a as ih => exact (standalone_arg a).mul ih

theorem standalone_punctuation {p : Piece}
    (hp : p ∈ [openParen, closeParen, openBracket, closeBracket, .lexeme .underscore ['_'],
      .lexeme .dot ['.'], .lexeme .bang ['!'], .lexeme .slash ['/'], .lexeme .colon [':']]) :
    p.Standalone := by
  simp only [List.mem_cons, List.not_mem_nil, or_false] at hp
  rcases hp with rfl | rfl | rfl | rfl | rfl | rfl | rfl | rfl | rfl
  all_goals exact standalone_of_step rfl rfl rfl rfl

theorem standalone_subtype (subtype : Option Name) :
    ∀ p ∈ subtypePieces subtype, p.Standalone := by
  cases subtype with
  | none => simp [subtypePieces]
  | some name =>
    have hslash : Piece.Standalone (.lexeme .slash ['/']) := standalone_punctuation (by simp)
    simpa [subtypePieces] using ⟨hslash, standalone_name name⟩

theorem standalone_suffix (mark : Option Repeat) (captures : List CaptureName) :
    ∀ p ∈ suffixPieces mark captures, p.Standalone := by
  intro p hp
  rcases List.mem_append.mp hp with hp | hp
  · obtain ⟨r, -, rfl⟩ := List.mem_map.mp hp
    exact standalone_repeat r
  · obtain ⟨n, -, rfl⟩ := List.mem_map.mp hp
    exact standalone_captureName n

mutual

theorem standalone_atom : (a : Atom) → EachLetter Piece.Standalone a.spellings
  | .tree label subtype members => by
    have hopen : openParen.Standalone := standalone_punctuation (by simp)
    have hclose : closeParen.Standalone := standalone_punctuation (by simp)
    rw [Atom.spellings]
    refine ((eachLetter_singleton ?_).mul (standalone_members members)).mul
      (eachLetter_singleton (by simpa using hclose))
    simpa using ⟨hopen, standalone_label label, standalone_subtype subtype⟩
  | .group members => by
    have hopen : openParen.Standalone := standalone_punctuation (by simp)
    have hclose : closeParen.Standalone := standalone_punctuation (by simp)
    rw [Atom.spellings]
    exact ((eachLetter_singleton (by simpa using hopen)).mul (standalone_members members)).mul
      (eachLetter_singleton (by simpa using hclose))
  | .alternation branches => by
    have hopen : openBracket.Standalone := standalone_punctuation (by simp)
    have hclose : closeBracket.Standalone := standalone_punctuation (by simp)
    rw [Atom.spellings]
    exact ((eachLetter_singleton (by simpa using hopen)).mul (standalone_items branches)).mul
      (eachLetter_singleton (by simpa using hclose))
  | .str value => by
    rw [Atom.spellings]
    exact standalone_literals value
  | .wildcard => by
    have h : Piece.Standalone (.lexeme .underscore ['_']) := standalone_punctuation (by simp)
    rw [Atom.spellings]
    exact eachLetter_singleton (by simpa using h)
  | .anchor => by
    have h : Piece.Standalone (.lexeme .dot ['.']) := standalone_punctuation (by simp)
    rw [Atom.spellings]
    exact eachLetter_singleton (by simpa using h)
  | .negatedField name => by
    have h : Piece.Standalone (.lexeme .bang ['!']) := standalone_punctuation (by simp)
    rw [Atom.spellings]
    exact eachLetter_singleton (by simpa using ⟨h, standalone_name name⟩)

/-- **The pieces of which a pattern is written are pieces of the lexer.** -/
theorem standalone_item : (i : Item) → EachLetter Piece.Standalone i.spellings
  | .plain atom mark captures => by
    rw [Item.spellings]
    exact (standalone_atom atom).mul (eachLetter_singleton (standalone_suffix mark captures))
  | .field name value => by
    have h : Piece.Standalone (.lexeme .colon [':']) := standalone_punctuation (by simp)
    rw [Item.spellings]
    exact (eachLetter_singleton (by simpa using ⟨standalone_name name, h⟩)).mul
      (standalone_item value)

theorem standalone_items : (is : List Item) → EachLetter Piece.Standalone (Item.spellingsAll is)
  | [] => eachLetter_one
  | i :: is => by
    rw [Item.spellingsAll]
    exact (standalone_item i).mul (standalone_items is)

theorem standalone_member : (m : Member) → EachLetter Piece.Standalone m.spellings
  | .item i => by
    rw [Member.spellings]
    exact standalone_item i
  | .predicate name args => by
    have hopen : openParen.Standalone := standalone_punctuation (by simp)
    have hclose : closeParen.Standalone := standalone_punctuation (by simp)
    rw [Member.spellings]
    exact ((eachLetter_singleton (by simpa using ⟨hopen, standalone_predicateName name⟩)).mul
      (standalone_args args)).mul (eachLetter_singleton (by simpa using hclose))

theorem standalone_members : (ms : List Member) →
    EachLetter Piece.Standalone (Member.spellingsAll ms)
  | [] => eachLetter_one
  | m :: ms => by
    rw [Member.spellingsAll]
    exact (standalone_member m).mul (standalone_members ms)

end

/-! ## Texts of patterns -/

/-- The text is a way to write the patterns. -/
def Written (items : List Item) (text : String) : Prop :=
  ∃ ps ∈ Item.spellingsAll items, ∃ g rest, Gap g ∧ Rendering ps rest ∧ text.toList = g ++ rest

/-- **The significant lexemes of a written text** are those of the pieces that it is written
from. -/
theorem significant_of_written {items : List Item} {text : String} (h : Written items text) :
    ∃ ps ∈ Item.spellingsAll items, significant text = ps.flatMap Piece.lexemes := by
  obtain ⟨ps, hps, g, rest, hg, hrest, htext⟩ := h
  refine ⟨ps, hps, Cuts.significant_eq ?_⟩
  rw [htext]
  exact (hrest.cuts (standalone_items items ps hps)).gap hg

end Abstract

end Concord.Query
