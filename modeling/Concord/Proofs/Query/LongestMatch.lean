import Mathlib.Data.List.Chain
import Mathlib.Data.List.TakeWhile
import Concord.Proofs.Query.Patterns

/-!
# Query texts are cut by the longest match

The lexer does not try the patterns of the tokens: it looks at one character, and then takes what it
can.  Here what it takes is compared with the patterns.

* `Longest text rest` — no text that matches a pattern is a longer front of `text ++ rest` than
  `text`, which matches one.
* `Taken text rest ls` — the lexemes `ls` are made of `text` where `rest` follows it.
* `taken_step` — one step takes the longest match.
* `eachTaken_pieces` and `EachTaken.joinUnmatched` — so does every step of a run, also when
  unmatched text is joined.

`tokenize_longest` says it of the tokens of a whole text.
-/

set_option autoImplicit false

namespace Concord.Query

/-! ## Longest matches -/

/-- The text matches a pattern, and with the rest behind it there is no longer match. -/
structure Longest (text rest : List Char) : Prop where
  isToken : IsToken text
  longest : ∀ front, IsToken front → front <+: text ++ rest → front.length ≤ text.length

/-- The lexemes that are made of a text that is taken in front of the rest.

* The longest match is a token of the kind whose pattern it matches; a lone underscore matches two
  patterns, and is an underscore.
* A string literal is a quote, its value if that is not empty, and a quote.
* Garbage begins where no pattern matches. -/
inductive Taken : (text rest : List Char) → List Lexeme → Prop
  | token {k : TokenKind} {text rest : List Char} (h : Longest text rest)
    (hkind : ∀ d : TokenClass,
      text ∈ d.language ↔ d = .ofKind k ∨ k = .underscore ∧ d = .ofKind .ident) :
    Taken text rest [⟨k, text⟩]
  | literal {body rest : List Char} (h : Longest ('"' :: (body ++ ['"'])) rest)
    (hbody : Escaped (IsPlain '"' true) (· ≠ '\n') body) :
    Taken ('"' :: (body ++ ['"'])) rest
      (⟨.quote, ['"']⟩ :: ((if body = [] then [] else [⟨.strVal, body⟩]) ++ [⟨.quote, ['"']⟩]))
  | garbage {text rest : List Char} (hne : text ≠ [])
    (h : ∀ front, IsToken front → ¬ front <+: text ++ rest) :
    Taken text rest [⟨.garbage, text⟩]

/-! ## What a step takes -/

section Taking

variable {c : Char} {v rest cs : List Char}

/-- A match that no match of its own pattern exceeds is the longest one. -/
theorem Longest.of_class {d : TokenClass} (hclass : classOf c = some d) (hcs : v ++ rest = cs)
    (hmem : c :: v ∈ d.language)
    (hmax : ∀ w ∈ d.language, w <+: c :: cs → w.length ≤ (c :: v).length) :
    Longest (c :: v) rest where
  isToken := ⟨d, hmem⟩
  longest := by
    intro w hw hfront
    rw [List.cons_append, hcs] at hfront
    rcases mem_of_isPrefix hw hfront with ⟨-, rfl⟩ | ⟨d', hd', hwd⟩
    · exact Nat.succ_le_succ (Nat.zero_le _)
    · rw [hclass] at hd'
      cases hd'
      exact hmax w hwd hfront

/-- Such a match is a token of the kind that the pattern is declared for. -/
theorem Taken.of_class {k : TokenKind} (hclass : classOf c = some (.ofKind k))
    (hcs : v ++ rest = cs) (hmem : c :: v ∈ (TokenClass.ofKind k).language)
    (hmax : ∀ w ∈ (TokenClass.ofKind k).language, w <+: c :: cs → w.length ≤ (c :: v).length)
    (hne : c :: v ≠ ['_']) : Taken (c :: v) rest [⟨k, c :: v⟩] := by
  refine .token (.of_class hclass hcs hmem hmax) fun d ↦ ⟨fun hd ↦ .inl ?_, ?_⟩
  · obtain ⟨c', v', heq, hc' | ⟨-, hlone⟩⟩ := classOf_of_mem hd
    · obtain ⟨rfl, -⟩ := List.cons.inj heq
      rw [hclass] at hc'
      exact (Option.some_inj.mp hc').symm
    · exact absurd hlone hne
  · rintro (rfl | ⟨rfl, -⟩)
    · exact hmem
    · exact absurd (mem_oneOf_singleton_iff.mp hmem) hne

theorem taken_single {k : TokenKind} (hclass : classOf c = some (.ofKind k))
    (hlanguage : (TokenClass.ofKind k).language = oneOf {c}) (hne : c ≠ '_') :
    Taken [c] rest [⟨k, [c]⟩] := by
  refine .of_class hclass rfl ?_ ?_ fun h ↦ hne (List.cons.inj h).1
  · rw [hlanguage]
    exact mem_oneOf_singleton_iff.mpr rfl
  · intro w hw _
    rw [hlanguage] at hw
    rw [mem_oneOf_singleton_iff.mp hw]

/-- A run is at least as long as any other front with its property. -/
theorem length_le_takeWhile {p : Char → Bool} (hv : ∀ d ∈ v, p d = true) (h : v <+: cs) :
    v.length ≤ (cs.takeWhile p).length := by
  obtain ⟨tail, rfl⟩ := h
  rw [List.takeWhile_append_of_pos hv, List.length_append]
  exact Nat.le_add_right _ _

theorem taken_comment : Taken (';' :: cs.takeWhile (· != '\n')) (cs.dropWhile (· != '\n'))
    [⟨.comment, ';' :: cs.takeWhile (· != '\n')⟩] := by
  refine .of_class rfl List.takeWhile_append_dropWhile
    (mem_comment_iff.mpr ⟨_, fun _ ↦ List.mem_takeWhile_imp, rfl⟩) ?_ (by simp)
  intro w hw hfront
  obtain ⟨ds, hds, rfl⟩ := mem_comment_iff.mp hw
  exact Nat.succ_le_succ (length_le_takeWhile hds (List.cons_prefix_cons.mp hfront).2)

theorem taken_blank (hc : isBlank c = true) :
    Taken (c :: cs.takeWhile isBlank) (cs.dropWhile isBlank)
      [⟨.blank, c :: cs.takeWhile isBlank⟩] := by
  refine .of_class (classOf_blank hc) List.takeWhile_append_dropWhile
    (mem_blank_iff.mpr ⟨c, _, hc, fun _ ↦ List.mem_takeWhile_imp, rfl⟩) ?_ ?_
  · intro w hw hfront
    obtain ⟨_, ds, -, hds, rfl⟩ := mem_blank_iff.mp hw
    exact Nat.succ_le_succ (length_le_takeWhile hds (List.cons_prefix_cons.mp hfront).2)
  · rintro h
    obtain ⟨rfl, -⟩ := List.cons.inj h
    exact absurd hc (by decide)

/-- A lone underscore matches two patterns. -/
theorem taken_underscore (h : Longest ['_'] rest) : Taken ['_'] rest [⟨.underscore, ['_']⟩] := by
  refine .token h fun d ↦ ⟨fun hd ↦ ?_, ?_⟩
  · obtain ⟨c', v', heq, hc' | ⟨rfl, -⟩⟩ := classOf_of_mem hd
    · obtain ⟨rfl, -⟩ := List.cons.inj heq
      exact .inr ⟨rfl, (Option.some_inj.mp hc').symm⟩
    · exact .inl rfl
  · rintro (rfl | ⟨-, rfl⟩)
    · exact mem_oneOf_singleton_iff.mpr rfl
    · exact mem_ident_iff.mpr ⟨'_', [], rfl, by simp, rfl⟩

theorem taken_ident (hc : isIdentStart c = true) :
    Taken (takeIdent c cs).1.text (takeIdent c cs).2 (takeIdent c cs).1.lexemes := by
  have hmem := mem_ident_iff.mpr
    ⟨c, cs.takeWhile isIdentPart, hc, fun _ ↦ List.mem_takeWhile_imp, rfl⟩
  have hmax : ∀ w ∈ (TokenClass.ofKind .ident).language, w <+: c :: cs →
      w.length ≤ (c :: cs.takeWhile isIdentPart).length := by
    intro w hw hfront
    obtain ⟨_, ds, -, hds, rfl⟩ := mem_ident_iff.mp hw
    exact Nat.succ_le_succ (length_le_takeWhile hds (List.cons_prefix_cons.mp hfront).2)
  by_cases hlone : c :: cs.takeWhile isIdentPart = ['_']
  · have hlongest := Longest.of_class (classOf_ident hc) List.takeWhile_append_dropWhile hmem hmax
    simp only [takeIdent, if_pos hlone, Piece.text, Piece.lexemes]
    rw [hlone] at hlongest ⊢
    exact taken_underscore hlongest
  · simp only [takeIdent, if_neg hlone, Piece.text, Piece.lexemes]
    exact .of_class (classOf_ident hc) List.takeWhile_append_dropWhile hmem hmax hlone

/-- Garbage begins with a character that begins texts of one pattern only, if none of them is in
front. -/
theorem Taken.unmatched (cs : List Char) {d : TokenClass} (hclass : classOf c = some d)
    (hne : c ≠ '_') (hcs : v ++ rest = cs) (h : ∀ w ∈ d.language, ¬ w <+: c :: cs) :
    Taken (c :: v) rest [⟨.garbage, c :: v⟩] := by
  refine .garbage (List.cons_ne_nil c v) fun w hw hfront ↦ ?_
  rw [List.cons_append, hcs] at hfront
  rcases mem_of_isPrefix hw hfront with ⟨hc, -⟩ | ⟨d', hd', hwd⟩
  · exact hne hc
  · rw [hclass] at hd'
    cases hd'
    exact h w hwd hfront

/-- A character that begins no text of a pattern is garbage. -/
theorem Taken.stray (hclass : classOf c = none) (rest : List Char) :
    Taken [c] rest [⟨.garbage, [c]⟩] := by
  refine .garbage (List.cons_ne_nil c []) fun w hw hfront ↦ ?_
  rcases mem_of_isPrefix hw hfront with ⟨rfl, -⟩ | ⟨d', hd', -⟩
  · exact absurd hclass (by decide)
  · rw [hclass] at hd'
    exact Option.some_ne_none d' hd'.symm

/-- A character that begins names is garbage if none is behind it. -/
theorem Taken.unnamed {d : TokenClass} (hclass : classOf c = some d) (hne : c ≠ '_')
    (hname : ∀ w ∈ d.language, ∃ e v, isNameStart e = true ∧ w = c :: e :: v)
    (hnext : ∀ e ∈ cs.head?, ¬ isNameStart e = true) : Taken [c] cs [⟨.garbage, [c]⟩] := by
  refine .unmatched cs hclass hne rfl ?_
  intro w hw hfront
  obtain ⟨e, v, he, rfl⟩ := hname w hw
  obtain ⟨rest, rfl⟩ := (List.cons_prefix_cons.mp hfront).2
  exact hnext e rfl he

theorem taken_captureName :
    Taken (takeCaptureName cs).1.text (takeCaptureName cs).2 (takeCaptureName cs).1.lexemes := by
  have hname : ∀ w ∈ (TokenClass.ofKind .captureName).language,
      ∃ e v, isNameStart e = true ∧ w = '@' :: e :: v := by
    intro w hw
    obtain ⟨e, v, he, -, heq⟩ := mem_captureName_iff.mp hw
    exact ⟨e, v, he, heq⟩
  cases cs with
  | nil =>
    rw [takeCaptureName]
    exact .unnamed rfl (by decide) hname (by simp)
  | cons e es =>
    rw [takeCaptureName]
    split
    · rename_i he
      have hcs : e :: es.takeWhile isIdentPart ++ es.dropWhile isIdentPart = e :: es := by simp
      refine .of_class rfl hcs
        (mem_captureName_iff.mpr ⟨e, _, he, fun _ ↦ List.mem_takeWhile_imp, rfl⟩) ?_ (by simp)
      intro w hw hfront
      obtain ⟨d, ds, -, hds, rfl⟩ := mem_captureName_iff.mp hw
      simp only [List.cons_prefix_cons, true_and] at hfront
      exact Nat.add_le_add_right (length_le_takeWhile hds hfront.2) 2
    · rename_i he
      exact .unnamed rfl (by decide) hname (by simpa using he)

/-- The mark behind a name is one character or none. -/
theorem splitMark_fst :
    (splitMark cs).1 = [] ∨ ∃ e, isMark e = true ∧ (splitMark cs).1 = [e] := by
  cases cs with
  | nil => exact .inl rfl
  | cons e es =>
    rw [splitMark]
    split
    · exact .inr ⟨e, by simpa [isMark] using ‹e = '?' ∨ e = '!'›, rfl⟩
    · exact .inl rfl

/-- A run with its mark is at least as long as any other front of that form. -/
theorem length_le_marked {mark : List Char} (hv : ∀ d ∈ v, isPredicatePart d = true)
    (hmark : mark = [] ∨ ∃ e, isMark e = true ∧ mark = [e]) (h : v ++ mark <+: cs) :
    (v ++ mark).length ≤
      (cs.takeWhile isPredicatePart ++ (splitMark (cs.dropWhile isPredicatePart)).1).length := by
  rcases hmark with rfl | ⟨e, he, rfl⟩
  · rw [List.append_nil] at h ⊢
    rw [List.length_append]
    exact Nat.le_add_right_of_le (length_le_takeWhile hv h)
  · obtain ⟨tail, rfl⟩ := h
    have hstop : ∀ d ∈ (e :: tail).head?, isPredicatePart d = false := by
      rintro _ ⟨⟩
      rw [Bool.eq_false_iff]
      intro hpart
      rw [isMark_of_isPredicatePart hpart] at he
      exact Bool.false_ne_true he
    have hsplit : splitMark (e :: tail) = ([e], tail) := by
      rw [splitMark, if_pos (by simpa [isMark] using he)]
    rw [List.append_assoc, List.singleton_append]
    obtain ⟨htake, hdrop⟩ := run_eq hv hstop
    rw [htake, hdrop, hsplit]

theorem taken_predicateName :
    Taken (takePredicateName cs).1.text (takePredicateName cs).2
      (takePredicateName cs).1.lexemes := by
  have hname : ∀ w ∈ (TokenClass.ofKind .predicateName).language,
      ∃ e v, isNameStart e = true ∧ w = '#' :: e :: v := by
    intro w hw
    obtain ⟨e, v, mark, he, -, -, heq⟩ := mem_predicateName_iff.mp hw
    exact ⟨e, v ++ mark, he, heq⟩
  cases cs with
  | nil =>
    rw [takePredicateName]
    exact .unnamed rfl (by decide) hname (by simp)
  | cons e es =>
    rw [takePredicateName]
    split
    · rename_i he
      have hcs : e :: (es.takeWhile isPredicatePart ++
          (splitMark (es.dropWhile isPredicatePart)).1) ++
            (splitMark (es.dropWhile isPredicatePart)).2 = e :: es := by
        simp [splitMark_append]
      refine .of_class rfl hcs
        (mem_predicateName_iff.mpr
          ⟨e, _, _, he, fun _ ↦ List.mem_takeWhile_imp, splitMark_fst, rfl⟩) ?_ (by simp)
      intro w hw hfront
      obtain ⟨d, ds, mark, -, hds, hmark, rfl⟩ := mem_predicateName_iff.mp hw
      simp only [List.cons_prefix_cons, true_and] at hfront
      exact Nat.add_le_add_right (length_le_marked hds hmark hfront.2) 2
    · rename_i he
      exact .unnamed rfl (by decide) hname (by simpa using he)

/-- A string literal in front of a text is the one that is found. -/
theorem literalBody_of_isPrefix {w : List Char} (hw : w ∈ TokenClass.literal.language)
    (h : w <+: '"' :: cs) :
    ∃ body rest, literalBody '"' true cs = (body, true, rest) ∧ w = '"' :: (body ++ ['"']) := by
  obtain ⟨body, hbody, rfl⟩ := mem_literal_iff.mp hw
  obtain ⟨rest, hrest⟩ := (List.cons_prefix_cons.mp h).2
  rw [List.append_assoc, List.singleton_append] at hrest
  exact ⟨body, rest, (literalBody_eq_iff (by decide)).mpr ⟨hbody, hrest.symm⟩, rfl⟩

theorem taken_literal :
    Taken (takeLiteral cs).1.text (takeLiteral cs).2 (takeLiteral cs).1.lexemes := by
  have happend := literalBody_append '"' true cs
  rw [takeLiteral]
  split
  · rename_i body rest heq
    obtain ⟨hbody, hcs⟩ := (literalBody_eq_iff (by decide)).mp heq
    have hlexemes : (Piece.literal body).lexemes = ⟨.quote, ['"']⟩ ::
        ((if body = [] then [] else [⟨.strVal, body⟩]) ++ [⟨.quote, ['"']⟩]) := by
      cases body <;> rfl
    rw [hlexemes]
    have hcs' : body ++ ['"'] ++ rest = cs := by simp [hcs]
    refine .literal (.of_class rfl hcs' (mem_literal_iff.mpr ⟨body, hbody, rfl⟩) ?_) hbody
    intro w hw hfront
    obtain ⟨body', rest', heq', rfl⟩ := literalBody_of_isPrefix hw hfront
    rw [heq] at heq'
    rw [(Prod.mk.inj heq').1]
  · rename_i body rest heq
    have hcs : body ++ rest = cs := by simpa [heq] using happend
    refine .unmatched cs (d := .literal) rfl (by decide) hcs ?_
    intro w hw hfront
    obtain ⟨body', rest', heq', -⟩ := literalBody_of_isPrefix hw hfront
    rw [heq] at heq'
    simp at heq'

/-- **One step takes the longest match.** -/
theorem taken_step (c : Char) (cs : List Char) :
    Taken (step c cs).1.text (step c cs).2 (step c cs).1.lexemes := by
  unfold step
  split
  all_goals first
    | exact taken_single rfl rfl (by decide)
    | exact taken_comment
    | exact taken_literal
    | exact taken_captureName
    | exact taken_predicateName
    | skip
  split
  · exact taken_blank ‹isBlank c = true›
  · split
    · exact taken_ident ‹isIdentStart c = true›
    · refine .stray ?_ cs
      unfold classOf
      split
      all_goals first
        | contradiction
        | skip
      rw [if_neg ‹¬ isBlank c = true›, if_neg ‹¬ isIdentStart c = true›]

end Taking

/-! ## Whole texts -/

/-- Each piece is taken in front of those behind it. -/
inductive EachTaken : List Piece → Prop
  | nil : EachTaken []
  | cons {p : Piece} {ps : List Piece} (hp : Taken p.text (ps.flatMap Piece.text) p.lexemes)
    (hps : EachTaken ps) : EachTaken (p :: ps)

theorem eachTaken_pieces (cs : List Char) : EachTaken (pieces cs) := by
  fun_induction pieces cs with
  | case1 => exact .nil
  | case2 c cs ih =>
    refine .cons ?_ ih
    rw [flatMap_text_pieces]
    exact taken_step c cs

theorem Taken.of_garbage {text rest : List Char} {ls : List Lexeme} (h : Taken text rest ls)
    (hls : ∀ l ∈ ls, l.kind = .garbage) :
    text ≠ [] ∧ ∀ w, IsToken w → ¬ w <+: text ++ rest := by
  cases h with
  | @token k text rest h hkind =>
    obtain ⟨d, hd⟩ := h.isToken
    have hk : k = .garbage := hls _ (List.mem_singleton_self _)
    rcases (hkind d).mp hd with rfl | ⟨rfl, -⟩
    · rw [hk] at hd
      exact absurd hd (Language.notMem_zero _)
    · contradiction
  | literal => exact absurd (hls _ List.mem_cons_self) (by decide)
  | garbage hne h => exact ⟨hne, h⟩

/-- Garbage that goes on with garbage begins where the first of it does. -/
theorem EachTaken.joinUnmatched {ps : List Piece} (h : EachTaken ps) :
    EachTaken (joinUnmatched ps) := by
  fun_induction Concord.Query.joinUnmatched ps with
  | case1 => exact h
  | case2 a ps b qs heq ih =>
    cases h with
    | cons hp hps =>
      have hjoined := ih hps
      have hrest := flatMap_text_joinUnmatched ps
      rw [heq] at hjoined hrest
      obtain ⟨hne, hnone⟩ := hp.of_garbage (by simp [Piece.lexemes])
      cases hjoined with
      | cons _ hqs =>
        refine .cons (.garbage (List.append_ne_nil_of_left_ne_nil hne b) ?_) hqs
        intro w hw hfront
        refine hnone w hw ?_
        rw [← hrest]
        simpa [Piece.text] using hfront
  | case3 a ps _ ih =>
    cases h with
    | cons hp hps =>
      refine .cons ?_ (ih hps)
      rw [flatMap_text_joinUnmatched]
      exact hp
  | case4 p ps _ ih =>
    cases h with
    | cons hp hps =>
      refine .cons ?_ (ih hps)
      rw [flatMap_text_joinUnmatched]
      exact hp

theorem EachTaken.taken {ps : List Piece} (h : EachTaken ps) {before after : List Piece}
    {p : Piece} (hps : ps = before ++ p :: after) :
    Taken p.text (after.flatMap Piece.text) p.lexemes := by
  induction before generalizing ps with
  | nil =>
    subst hps
    cases h with
    | cons hp _ => exact hp
  | cons q before ih =>
    subst hps
    cases h with
    | cons _ hqs => exact ih hqs rfl

/-! ### Garbage is never cut in two -/

/-- The kinds of lexemes that are all of their piece: neither parts of a string nor unmatched
text. -/
def TokenKind.isWhole : TokenKind → Bool
  | quote | strVal | garbage => false
  | _ => true

/-- A token has a kind of its own. -/
theorem isWhole_of_step {c : Char} {cs text : List Char} {k : TokenKind}
    (h : (step c cs).1 = .lexeme k text) : k.isWhole = true := by
  unfold step at h
  split at h
  all_goals first
    | obtain ⟨rfl, -⟩ := Piece.lexeme.inj h
      decide
    | skip
  · rw [takeLiteral] at h
    split at h <;> contradiction
  · cases cs with
    | nil => contradiction
    | cons d ds =>
      rw [takeCaptureName] at h
      split at h
      · obtain ⟨rfl, -⟩ := Piece.lexeme.inj h
        rfl
      · contradiction
  · cases cs with
    | nil => contradiction
    | cons d ds =>
      rw [takePredicateName] at h
      split at h
      · obtain ⟨rfl, -⟩ := Piece.lexeme.inj h
        rfl
      · contradiction
  · split at h
    · obtain ⟨rfl, -⟩ := Piece.lexeme.inj h
      rfl
    · split at h
      · rw [takeIdent] at h
        obtain ⟨rfl, -⟩ := Piece.lexeme.inj h
        split <;> rfl
      · contradiction

theorem kind_ne_garbage_of_step {c : Char} {cs text : List Char} {k : TokenKind}
    (h : (step c cs).1 = .lexeme k text) : k ≠ .garbage := by
  rintro rfl
  exact Bool.noConfusion (isWhole_of_step h)

theorem lexemes_ne_nil (p : Piece) : p.lexemes ≠ [] := by
  cases p with
  | lexeme k text => exact List.cons_ne_nil _ _
  | literal body => cases body <;> exact List.cons_ne_nil _ _
  | unmatched text => exact List.cons_ne_nil _ _

theorem kind_ne_garbage_of_isMatched {c : Char} {cs : List Char}
    (h : (step c cs).1.isMatched = true) : ∀ l ∈ (step c cs).1.lexemes, l.kind ≠ .garbage := by
  intro l hl
  cases hp : (step c cs).1 with
  | lexeme k text =>
    rw [hp, Piece.lexemes, List.mem_singleton] at hl
    rw [hl]
    exact kind_ne_garbage_of_step hp
  | literal body =>
    rw [hp] at hl
    cases body <;> simp only [Piece.lexemes, List.mem_cons, List.not_mem_nil, or_false] at hl
    · rcases hl with rfl | rfl <;> decide
    · rcases hl with rfl | rfl | rfl <;> exact TokenKind.noConfusion
  | unmatched text =>
    rw [hp] at h
    contradiction

/-- Pieces of which none is unmatched behind another one. -/
inductive Parted : List Piece → Prop
  | nil : Parted []
  | matched {p : Piece} {ps : List Piece} (hp : p.isMatched = true)
    (hkinds : ∀ l ∈ p.lexemes, l.kind ≠ .garbage) (h : Parted ps) : Parted (p :: ps)
  | unmatched {text : List Char} {ps : List Piece} (hhead : ∀ p ∈ ps.head?, p.isMatched = true)
    (h : Parted ps) : Parted (.unmatched text :: ps)

theorem parted_joinUnmatched {ps : List Piece}
    (h : ∀ p ∈ ps, p.isMatched = true → ∀ l ∈ p.lexemes, l.kind ≠ .garbage) :
    Parted (joinUnmatched ps) := by
  fun_induction joinUnmatched ps with
  | case1 => exact .nil
  | case2 a ps b qs heq ih =>
    have hparted := ih (List.forall_mem_cons.mp h).2
    rw [heq] at hparted
    cases hparted with
    | matched hp => contradiction
    | unmatched hhead hqs => exact .unmatched hhead hqs
  | case3 a ps hps ih =>
    refine .unmatched (fun p hp ↦ ?_) (ih (List.forall_mem_cons.mp h).2)
    obtain ⟨qs, hqs⟩ := List.head?_eq_some_iff.mp hp
    cases p with
    | lexeme k text => rfl
    | literal body => rfl
    | unmatched text => exact absurd hqs (hps text qs)
  | case4 p ps hp ih =>
    obtain ⟨hkinds, hps⟩ := List.forall_mem_cons.mp h
    have hmatched : p.isMatched = true := by
      cases p with
      | lexeme k text => rfl
      | literal body => rfl
      | unmatched text => exact absurd rfl (hp text)
    exact .matched hmatched (hkinds hmatched) (ih hps)

theorem parted_pieces (cs : List Char) : Parted (joinUnmatched (pieces cs)) := by
  refine parted_joinUnmatched ?_
  fun_induction pieces cs with
  | case1 => exact List.forall_mem_nil _
  | case2 c cs ih => exact List.forall_mem_cons.mpr ⟨kind_ne_garbage_of_isMatched, ih⟩

/-- Of two lexemes or tokens side by side, one is no garbage. -/
def Apart (k k' : TokenKind) : Prop := ¬ (k = .garbage ∧ k' = .garbage)

theorem isChain_append {ls ms : List Lexeme} (hls : ∀ l ∈ ls, l.kind ≠ .garbage)
    (hms : ms.IsChain fun l m ↦ Apart l.kind m.kind) :
    (ls ++ ms).IsChain fun l m ↦ Apart l.kind m.kind := by
  induction ls with
  | nil => exact hms
  | cons l ls ih =>
    obtain ⟨hl, hls⟩ := List.forall_mem_cons.mp hls
    exact List.isChain_cons.mpr ⟨fun m _ h ↦ hl h.1, ih hls⟩

theorem Parted.isChain {ps : List Piece} (h : Parted ps) :
    (ps.flatMap Piece.lexemes).IsChain fun l m ↦ Apart l.kind m.kind := by
  induction h with
  | nil => exact .nil
  | matched _ hkinds _ ih => exact isChain_append hkinds ih
  | @unmatched text ps hhead hps ih =>
    refine List.isChain_cons.mpr ⟨?_, ih⟩
    rintro m hm ⟨-, hgarbage⟩
    cases hps with
    | nil => contradiction
    | unmatched => exact absurd (hhead _ rfl) Bool.false_ne_true
    | @matched q qs _ hkinds _ =>
      have hm : m ∈ ((q :: qs).flatMap Piece.lexemes).head? := hm
      refine hkinds m (List.mem_of_mem_head? ?_) hgarbage
      rwa [List.flatMap_cons, List.head?_append_of_ne_nil _ (lexemes_ne_nil q)] at hm

/-- **The longest match is taken everywhere.**  A text is cut, and its tokens are made of the parts.
Each part is the longest match at its place, or else garbage that begins where nothing matches; and
garbage does not stand beside garbage. -/
theorem tokenize_longest (source : String) : ∃ cuts : List (List Char × List Lexeme),
    cuts.flatMap Prod.fst = source.toList ∧
    tokenize source = Token.placeAll 0 (cuts.flatMap Prod.snd) ∧
    (∀ before text ls after, cuts = before ++ (text, ls) :: after →
      Taken text (after.flatMap Prod.fst) ls) ∧
    (tokenize source).IsChain fun t u ↦ Apart t.kind u.kind := by
  let ps := joinUnmatched (pieces source.toList)
  refine ⟨ps.map fun p ↦ (p.text, p.lexemes), ?_, ?_, ?_, ?_⟩
  · rw [List.flatMap_map]
    exact (flatMap_text_joinUnmatched _).trans (flatMap_text_pieces _)
  · rw [List.flatMap_map]
    rfl
  · intro before text ls after hcuts
    obtain ⟨before', rest, hps, rfl, hrest⟩ := List.map_eq_append_iff.mp hcuts
    obtain ⟨p, after', rfl, hp, rfl⟩ := List.map_eq_cons_iff.mp hrest
    obtain ⟨rfl, rfl⟩ := Prod.mk.inj hp
    rw [List.flatMap_map]
    exact (eachTaken_pieces source.toList).joinUnmatched.taken hps
  · have hchain := (parted_pieces source.toList).isChain
    rw [← scan, ← Token.map_toLexeme_placeAll 0 (scan source.toList), List.isChain_map] at hchain
    exact hchain

end Concord.Query
