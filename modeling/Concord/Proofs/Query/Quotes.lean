import Concord.Proofs.Query.Form
import Concord.Proofs.Query.LongestMatch
import Concord.Proofs.Query.Reading

/-!
# Strings have both of their quotes

The lexer gives out a quote only as a part of a whole string literal; the quote of a string that
is not closed is garbage.  So the quotes of a text stand in pairs, with at most the value of the
string between the two, and a production that meets a quote meets all of its string.  What has to
be shown is that no production stops or recovers inside of a string.

* `Paired ls` says that the quotes among lexemes stand in pairs; `paired_significant` says it of
  every text.
* `Tree.Quoted t` says that the strings in a tree have both of their quotes.
* `Parsed.Closes p` says that a result has only such trees, that no closing quote was missed, and
  that what is left is paired still.  The lemmas on it follow the productions, up to
  `Production.root_closes`.
-/

set_option autoImplicit false

open Computability

namespace Concord.Query

/-! ## Paired quotes -/

/-- The quotes stand in pairs, with at most the value of a string between them. -/
inductive Paired : List Lexeme → Prop
  | nil : Paired []
  | other {l : Lexeme} {ls : List Lexeme} (hquote : l.kind ≠ .quote) (hvalue : l.kind ≠ .strVal)
    (h : Paired ls) : Paired (l :: ls)
  | literal {o c : Lexeme} {value ls : List Lexeme} (ho : o.kind = .quote)
    (hvalue : Production.ValueForm value) (hc : c.kind = .quote) (h : Paired ls) :
    Paired (o :: (value ++ c :: ls))

namespace Paired

variable {l : Lexeme} {ls : List Lexeme}

/-- In front of anything but a quote, one lexeme can be taken off. -/
theorem tail (h : Paired (l :: ls)) (hl : l.kind ≠ .quote) : Paired ls := by
  cases h with
  | other _ _ h => exact h
  | literal ho => exact absurd ho hl

/-- A quote stands in front of a whole literal. -/
theorem exists_literal (h : Paired (l :: ls)) (hl : l.kind = .quote) :
    ∃ value c rest, ls = value ++ c :: rest ∧ Production.ValueForm value ∧ c.kind = .quote ∧
      Paired rest := by
  cases h with
  | other hquote => exact absurd hl hquote
  | literal _ hvalue hc h => exact ⟨_, _, _, rfl, hvalue, hc, h⟩

theorem dropWhile {p : Lexeme → Bool} (hp : ∀ l, p l = true → l.kind ≠ .quote) (h : Paired ls) :
    Paired (ls.dropWhile p) := by
  induction ls with
  | nil => exact .nil
  | cons l ls ih =>
    rw [List.dropWhile_cons]
    split
    · rename_i hl
      exact ih (h.tail (hp l hl))
    · exact h

/-- Lexemes that belong to no string can be left out. -/
theorem filter {p : Lexeme → Bool}
    (hp : ∀ l, l.kind = .quote ∨ l.kind = .strVal → p l = true) (h : Paired ls) :
    Paired (ls.filter p) := by
  induction h with
  | nil => exact .nil
  | @other l ls hquote hvalue _ ih =>
    rw [List.filter_cons]
    split
    · exact .other hquote hvalue ih
    · exact ih
  | @literal o c value ls ho hvalue hc _ ih =>
    have hkeep : value.filter p = value := by
      rw [List.filter_eq_self]
      cases hvalue with
      | absent => exact List.forall_mem_nil _
      | present hvalue => exact List.forall_mem_singleton.mpr (hp _ (.inr hvalue))
    rw [List.filter_cons_of_pos (hp o (.inl ho)), List.filter_append, hkeep,
      List.filter_cons_of_pos (hp c (.inl hc))]
    exact .literal ho hvalue hc ih

end Paired

/-! ## The quotes of a text -/

/-- The lexemes of a piece go in front of paired ones. -/
theorem Piece.paired_append {p : Piece} (hp : ∀ k text, p = .lexeme k text → k.isWhole = true)
    {ls : List Lexeme} (h : Paired ls) : Paired (p.lexemes ++ ls) := by
  cases p with
  | lexeme k text =>
    have hwhole := hp k text rfl
    exact .other (by rintro rfl; contradiction) (by rintro rfl; contradiction) h
  | literal body =>
    cases body with
    | nil => exact .literal rfl .absent rfl h
    | cons c body => exact .literal rfl (.present rfl) rfl h
  | unmatched text => exact .other TokenKind.noConfusion TokenKind.noConfusion h

theorem paired_joinUnmatched {ps : List Piece}
    (hps : ∀ p ∈ ps, ∀ k text, p = .lexeme k text → k.isWhole = true) :
    Paired ((joinUnmatched ps).flatMap Piece.lexemes) := by
  fun_induction joinUnmatched ps with
  | case1 => exact .nil
  | case2 a ps b qs heq ih =>
    have hqs := ih fun p hp ↦ hps p (List.mem_cons_of_mem _ hp)
    rw [heq] at hqs
    exact .other TokenKind.noConfusion TokenKind.noConfusion (hqs.tail TokenKind.noConfusion)
  | case3 a ps _ ih =>
    exact .other TokenKind.noConfusion TokenKind.noConfusion
      (ih fun p hp ↦ hps p (List.mem_cons_of_mem _ hp))
  | case4 p ps _ ih =>
    exact Piece.paired_append (hps p List.mem_cons_self)
      (ih fun q hq ↦ hps q (List.mem_cons_of_mem _ hq))

theorem paired_scan (cs : List Char) : Paired (scan cs) := by
  refine paired_joinUnmatched ?_
  fun_induction pieces cs with
  | case1 => exact List.forall_mem_nil _
  | case2 c cs ih => exact List.forall_mem_cons.mpr ⟨fun k text hk ↦ isWhole_of_step hk, ih⟩

/-- **The quotes of a text stand in pairs.** -/
theorem paired_significant (source : String) : Paired (significant source) := by
  rw [significant_eq_filter]
  refine (paired_scan source.toList).filter fun l hl ↦ ?_
  rcases hl with hl | hl <;> rw [hl] <;> rfl

/-! ## Trees with quoted strings -/

namespace Form

/-- The children of a string that has both of its quotes. -/
def literal : Language ChildKind := token .quote * ((1 + token .strVal) * token .quote)

end Form

/-- The strings in the tree have both of their quotes. -/
inductive Tree.Quoted : Tree Lexeme → Prop
  | leaf (l : Lexeme) : Quoted (.leaf l)
  | node {kind : NodeKind} {children : List (Tree Lexeme)}
    (hstr : kind = .str → children.map Tree.childKind ∈ Form.literal)
    (h : ∀ c ∈ children, Quoted c) : Quoted (.node kind children)

/-! ## Results that keep strings whole -/

/-- The trees that were built have quoted strings, no closing quote was missed, and the quotes that
are left stand in pairs. -/
structure Parsed.Closes (p : Parsed) : Prop where
  trees : ∀ t ∈ p.trees, t.Quoted
  reports : ∀ r ∈ p.reports, r.problem ≠ .expectedClosingQuote
  rest : Paired p.rest

namespace Parsed

variable {p : Parsed}

theorem Closes.andThen {next : Production} (hp : p.Closes) (hnext : (next p.rest).Closes) :
    (p.andThen next).Closes where
  trees := List.forall_mem_append.mpr ⟨hp.trees, hnext.trees⟩
  reports := List.forall_mem_append.mpr ⟨hp.reports, hnext.reports⟩
  rest := hnext.rest

theorem Closes.wrap {kind : NodeKind} (hkind : kind ≠ .str) (hp : p.Closes) :
    (p.wrap kind).Closes where
  trees := List.forall_mem_singleton.mpr (.node (fun h ↦ absurd h hkind) hp.trees)
  reports := hp.reports
  rest := hp.rest

theorem closes_leaves (leaves : List Lexeme) {ls : List Lexeme} (h : Paired ls) :
    Parsed.Closes ⟨leaves.map .leaf, [], ls⟩ where
  trees := List.forall_mem_map.mpr fun l _ ↦ .leaf l
  reports := List.forall_mem_nil _
  rest := h

end Parsed

namespace Production

variable {ls : List Lexeme}

/-- The production keeps the strings in front of it whole. -/
def Closing (p : Production) : Prop := ∀ ls, Paired ls → (p ls).Closes

/-! ## Building blocks -/

theorem nothing_closing : Closing nothing := fun _ h ↦ Parsed.closes_leaves [] h

/-- A lexeme that is no quote can be taken by itself. -/
theorem token_closes (h : Paired ls) (hahead : kindAhead ls ≠ some .quote) :
    (token ls).Closes := by
  cases ls with
  | nil => exact nothing_closing [] h
  | cons l ls => exact Parsed.closes_leaves [l] (h.tail fun hl ↦ hahead (congrArg some hl))

theorem report_closing {problem : Problem} (hproblem : problem ≠ .expectedClosingQuote) :
    Closing (report problem) := fun _ h ↦
  ⟨List.forall_mem_nil _, List.forall_mem_singleton.mpr hproblem, h⟩

/-- A token that may be missing. -/
theorem if_token_closes {k : TokenKind} (hk : k ≠ .quote) {other : Production}
    (hother : Closing other) (h : Paired ls) :
    (if kindAhead ls = some k then token ls else other ls).Closes := by
  split
  · rename_i hahead
    exact token_closes h (by simpa [hahead] using hk)
  · exact hother ls h

theorem expect_closing {k : TokenKind} (hk : k ≠ .quote) {problem : Problem}
    (hproblem : problem ≠ .expectedClosingQuote) : Closing (expect k problem) :=
  fun _ ↦ if_token_closes hk (report_closing hproblem)

theorem close_closing {k : TokenKind} (hk : k ≠ .quote) {problem : Nat → Problem}
    (hproblem : ∀ n, problem n ≠ .expectedClosingQuote) (opener : List Lexeme) :
    Closing (close k problem opener) :=
  fun _ ↦ if_token_closes hk (report_closing (hproblem _))

theorem seq_closing {ps : List Production} (h : ∀ p ∈ ps, Closing p) : Closing (seq ps) := by
  induction ps with
  | nil => exact nothing_closing
  | cons p ps ih =>
    obtain ⟨hp, hps⟩ := List.forall_mem_cons.mp h
    exact fun ls hls ↦ (hp ls hls).andThen (ih hps _ (hp ls hls).rest)

theorem seq_cons_closes {p : Production} {ps : List Production} (hp : (p ls).Closes)
    (hps : ∀ q ∈ ps, Closing q) : (seq (p :: ps) ls).Closes :=
  hp.andThen (seq_closing hps _ hp.rest)

theorem many_closing {stop : TokenKind → Bool} {item : TokenKind → Production}
    (h : ∀ kind, Advances (item kind))
    (hitem : ∀ l ls, Paired (l :: ls) → (item l.kind (l :: ls)).Closes) :
    Closing (many stop item) := by
  refine fun ls ↦ many_induction h (motive := fun ls p ↦ Paired ls → p.Closes) ?_ ?_ ?_ ls
  · exact nothing_closing []
  · exact fun l ls _ ↦ nothing_closing (l :: ls)
  · exact fun l ls _ ih hls ↦ (hitem l ls hls).andThen (ih (hitem l ls hls).rest)

/-! ## Errors -/

theorem stray_closes {problem : Problem} (hproblem : problem ≠ .expectedClosingQuote)
    (h : Paired ls) (hahead : kindAhead ls ≠ some .quote) : (stray problem ls).Closes :=
  (report_closing hproblem ls h).andThen
    (((token_closes h hahead).wrap NodeKind.noConfusion).andThen
      (nothing_closing _ (token_closes h hahead).rest))

theorem garbage_closes {l : Lexeme} (h : Paired (l :: ls)) (hl : l.kind ≠ .quote) :
    (garbage (l :: ls)).Closes := by
  have hahead : kindAhead (l :: ls) ≠ some .quote := by simpa using hl
  rw [garbage]
  split
  · exact stray_closes Problem.noConfusion h hahead
  · exact stray_closes Problem.noConfusion h hahead

theorem strayToken_closes {l : Lexeme} (h : Paired (l :: ls)) (hl : l.kind ≠ .quote)
    (k : TokenKind) : (strayToken k (l :: ls)).Closes := by
  have hahead : kindAhead (l :: ls) ≠ some .quote := by simpa using hl
  rw [strayToken.eq_def]
  split
  all_goals first
    | exact stray_closes Problem.noConfusion h hahead
    | exact garbage_closes h hl

/-! ## Atoms -/

/-- **A string is read with both of its quotes.** -/
theorem str_closes {l : Lexeme} (h : Paired (l :: ls)) (hl : l.kind = .quote) :
    (str (l :: ls)).Closes := by
  obtain ⟨value, c, rest, rfl, hvalue, hc, hrest⟩ := h.exists_literal hl
  rw [str_eq hvalue hc]
  refine ⟨List.forall_mem_singleton.mpr (.node (fun _ ↦ ?_) ?_), List.forall_mem_nil _, hrest⟩
  · rw [List.map_cons, List.map_append, Tree.childKind, hl]
    refine Language.append_mem_mul (Form.mem_token .quote)
      (Language.append_mem_mul ((Language.mem_add _ _ _).mpr ?_) ?_)
    · cases hvalue with
      | absent => exact .inl rfl
      | present hvalue =>
        rw [List.map_singleton, List.map_singleton, Tree.childKind, hvalue]
        exact .inr rfl
    · rw [List.map_singleton, Tree.childKind, hc]
      exact Form.mem_token .quote
  · have hleaves : ∀ t ∈ (l :: (value ++ [c])).map Tree.leaf, t.Quoted :=
      List.forall_mem_map.mpr fun m _ ↦ .leaf m
    simpa using hleaves

theorem negatedField_closes (h : Paired ls) (hahead : kindAhead ls ≠ some .quote) :
    (negatedField ls).Closes :=
  (seq_cons_closes (token_closes h hahead) (List.forall_mem_singleton.mpr
    (expect_closing TokenKind.noConfusion Problem.noConfusion))).wrap NodeKind.noConfusion

theorem argument_closes (l : Lexeme) (ls : List Lexeme) (h : Paired (l :: ls)) :
    (argument l.kind (l :: ls)).Closes := by
  have htoken (hl : l.kind ≠ .quote) := token_closes h (by simpa using hl)
  cases hl : l.kind with
  | quote => exact str_closes h hl
  | captureName | ident | underscore => exact htoken (by rw [hl]; exact TokenKind.noConfusion)
  | garbage => exact garbage_closes h (by rw [hl]; exact TokenKind.noConfusion)
  | _ => exact stray_closes Problem.noConfusion h (by simp [hl])

theorem arguments_closing : Closing arguments := many_closing argument_advances argument_closes

theorem subtype_closing : Closing subtype := by
  intro ls h
  rw [subtype]
  split
  · rename_i hahead
    exact seq_cons_closes (token_closes h (by simp [hahead])) (List.forall_mem_singleton.mpr
      (expect_closing TokenKind.noConfusion Problem.noConfusion))
  · exact nothing_closing ls h

section Nested

variable {pattern : Production}

theorem item_closes (hP : Closing pattern) (l : Lexeme) (ls : List Lexeme)
    (h : Paired (l :: ls)) :
    ((if l.kind.startsPattern then pattern else strayToken l.kind) (l :: ls)).Closes := by
  split
  · exact hP _ h
  · rename_i hstart
    exact strayToken_closes h (fun hl ↦ hstart (by rw [hl]; rfl)) _

theorem patterns_closing (hp : Advances pattern) (hP : Closing pattern)
    (stop : TokenKind → Bool) : Closing (patterns pattern stop) :=
  many_closing (item_advances hp) (item_closes hP)

theorem field_closes (hP : Closing pattern) (h : Paired ls) (hahead : kindAhead ls ≠ some .quote)
    (hcolon : kindAhead ls.tail = some .colon) : (field pattern ls).Closes := by
  obtain _ | ⟨l, ls⟩ := ls
  · contradiction
  have hname := token_closes h hahead
  have hmark : (token ls).Closes := token_closes hname.rest fun hquote ↦ by
    rw [List.tail_cons, hquote] at hcolon
    contradiction
  refine (hname.andThen (seq_cons_closes hmark (List.forall_mem_singleton.mpr ?_))).wrap
    NodeKind.noConfusion
  intro ls h
  dsimp only
  split
  · exact hP ls h
  · exact report_closing Problem.noConfusion ls h

theorem parenBody_closes (hp : Advances pattern) (hP : Closing pattern) (h : Paired ls) :
    ((parenBody pattern ls).2 ls).Closes := by
  have hpatterns := patterns_closing hp hP (· = .parenClose)
  rw [parenBody]
  split
  · exact nothing_closing ls h
  · exact report_closing Problem.noConfusion ls h
  · rename_i hahead
    exact seq_cons_closes (token_closes h (by simp [hahead]))
      (by simpa using ⟨subtype_closing, hpatterns⟩)
  · rename_i hahead
    exact seq_cons_closes (token_closes h (by simp [hahead]))
      (by simpa using ⟨subtype_closing, hpatterns⟩)
  · rename_i hahead
    exact seq_cons_closes (token_closes h (by simp [hahead]))
      (List.forall_mem_singleton.mpr arguments_closing)
  · split
    · exact hpatterns ls h
    · exact seq_cons_closes (report_closing Problem.noConfusion ls h)
        (List.forall_mem_singleton.mpr hpatterns)

theorem parenBody_ne_str (ls : List Lexeme) : (parenBody pattern ls).1 ≠ .str := by
  rw [parenBody]
  split
  all_goals first
    | exact NodeKind.noConfusion
    | split <;> exact NodeKind.noConfusion

theorem paren_closes (hp : Advances pattern) (hP : Closing pattern) {l : Lexeme}
    (h : Paired (l :: ls)) (hl : l.kind ≠ .quote) : (paren pattern (l :: ls)).Closes := by
  have hopen := token_closes h (by simpa using hl)
  have hbody := parenBody_closes hp hP hopen.rest
  have hclose : Closing (close .parenClose .unclosedTree (l :: ls)) :=
    close_closing TokenKind.noConfusion (fun _ ↦ Problem.noConfusion) _
  exact (hopen.andThen (seq_cons_closes hbody (List.forall_mem_singleton.mpr hclose))).wrap
    (parenBody_ne_str ls)

theorem alternation_closes (hp : Advances pattern) (hP : Closing pattern) (h : Paired ls)
    (hahead : kindAhead ls ≠ some .quote) : (alternation pattern ls).Closes := by
  have hclose : Closing (close .bracketClose .unclosedAlternation ls) :=
    close_closing TokenKind.noConfusion (fun _ ↦ Problem.noConfusion) _
  exact (seq_cons_closes (token_closes h hahead)
    (by simpa using ⟨patterns_closing hp hP _, hclose⟩)).wrap NodeKind.noConfusion

theorem atom_closing (hp : Advances pattern) (hP : Closing pattern) : Closing (atom pattern) := by
  intro ls h
  by_cases hquote : kindAhead ls = some .quote
  · obtain _ | ⟨l, ls⟩ := ls
    · contradiction
    rw [atom, hquote]
    exact str_closes h (Option.some_inj.mp hquote)
  · have htoken := token_closes h hquote
    rw [atom]
    split
    · obtain _ | ⟨l, ls⟩ := ls
      · contradiction
      exact paren_closes hp hP h (by simpa using hquote)
    · exact alternation_closes hp hP h hquote
    · contradiction
    · exact htoken.wrap NodeKind.noConfusion
    · exact htoken.wrap NodeKind.noConfusion
    · exact negatedField_closes h hquote
    · split
      · exact field_closes hP h hquote ‹_›
      · cases ls with
        | nil => contradiction
        | cons l ls => exact stray_closes Problem.noConfusion h hquote
    · exact stray_closes Problem.noConfusion h hquote

end Nested

/-! ## Patterns -/

theorem quantified_closes {p : Parsed} (h : p.Closes) : (quantified p).Closes := by
  rw [quantified]
  split
  · rename_i hahead
    refine (h.andThen (token_closes h.rest fun hquote ↦ ?_)).wrap NodeKind.noConfusion
    rw [hquote] at hahead
    contradiction
  · exact h

theorem captured_closes {p : Parsed} (h : p.Closes) : (captured p).Closes := by
  by_cases hahead : kindAhead p.rest = some .captureName
  · have hrest : Paired (p.rest.dropWhile (·.kind = .captureName)) :=
      h.rest.dropWhile fun l hl ↦ by
        rw [of_decide_eq_true hl]
        exact TokenKind.noConfusion
    have hnames : (captureNames p.rest).Closes := Parsed.closes_leaves _ hrest
    rw [captured_of_ahead hahead]
    exact (h.andThen hnames).wrap NodeKind.noConfusion
  · rwa [captured, if_neg hahead]

theorem swallow_closing : Closing swallow := fun ls _ ↦
  { trees := List.forall_mem_singleton.mpr
      (.node NodeKind.noConfusion (Parsed.closes_leaves ls .nil).trees)
    reports := List.forall_mem_singleton.mpr Problem.noConfusion
    rest := .nil }

theorem pattern_closing (levels : Nat) : Closing (pattern levels) := by
  induction levels with
  | zero => exact swallow_closing
  | succ levels ih =>
    exact fun ls h ↦
      captured_closes (quantified_closes (atom_closing (pattern_advances levels) ih ls h))

/-- **No production takes a string apart.** -/
theorem root_closes (source : String) : (root (significant source)).Closes :=
  patterns_closing (pattern_advances maxDepth) (pattern_closing maxDepth) _ _
    (paired_significant source)

end Production

end Concord.Query
