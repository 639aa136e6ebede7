import Concord.Proofs.Query.Weaving
import Concord.Proofs.Text.Slice
import Concord.Query.Document

/-!
# Nothing of a text is lost

Every text can be read, and what is read holds the whole text, however malformed it is.

* `tiles_tokenize` — the tokens cover the text without gaps and without overlaps.
* `covers_of_mem_tokenize` — each of them covers at least one character, and the characters that
  it covers are its text.
* `bareAll_parse` — the tree holds what the productions built, and the productions account for
  every significant lexeme (`Production.leavesAll_trees_root`).
* `Document.parse_lossless` puts these together.
-/

set_option autoImplicit false

namespace Concord

namespace Query

/-! ## Lexemes are not empty -/

theorem text_ne_nil_of_mem_pieces (cs : List Char) : ∀ p ∈ pieces cs, p.text ≠ [] := by
  fun_induction pieces cs with
  | case1 => simp
  | case2 c cs ih =>
    intro p hp
    rcases List.mem_cons.mp hp with rfl | hp
    · exact step_text_ne_nil c cs
    · exact ih p hp

theorem text_ne_nil_of_mem_joinUnmatched {ps : List Piece} (h : ∀ p ∈ ps, p.text ≠ []) :
    ∀ p ∈ joinUnmatched ps, p.text ≠ [] := by
  fun_induction joinUnmatched ps with
  | case1 => simp
  | case2 a ps b qs heq ih =>
    have ha : a ≠ [] := h _ List.mem_cons_self
    rw [heq] at ih
    intro p hp
    rcases List.mem_cons.mp hp with rfl | hp
    · exact fun hnil ↦ ha (List.append_eq_nil_iff.mp hnil).1
    · exact ih (fun q hq ↦ h q (List.mem_cons_of_mem _ hq)) p (List.mem_cons_of_mem _ hp)
  | case3 a ps _ ih =>
    intro p hp
    rcases List.mem_cons.mp hp with rfl | hp
    · exact h _ List.mem_cons_self
    · exact ih (fun q hq ↦ h q (List.mem_cons_of_mem _ hq)) p hp
  | case4 q ps _ ih =>
    intro p hp
    rcases List.mem_cons.mp hp with rfl | hp
    · exact h _ List.mem_cons_self
    · exact ih (fun q hq ↦ h q (List.mem_cons_of_mem _ hq)) p hp

theorem text_ne_nil_of_mem_lexemes {p : Piece} (h : p.text ≠ []) :
    ∀ l ∈ p.lexemes, l.text ≠ [] := by
  cases p with
  | lexeme kind text => simpa [Piece.lexemes, Piece.text] using h
  | literal body => cases body <;> simp [Piece.lexemes]
  | unmatched text => simpa [Piece.lexemes, Piece.text] using h

/-- Every lexeme has at least one character. -/
theorem text_ne_nil_of_mem_scan {cs : List Char} {l : Lexeme} (hl : l ∈ scan cs) :
    l.text ≠ [] := by
  obtain ⟨p, hp, hl⟩ := List.mem_flatMap.mp hl
  have hp := text_ne_nil_of_mem_joinUnmatched (text_ne_nil_of_mem_pieces cs) p hp
  exact text_ne_nil_of_mem_lexemes hp l hl

/-! ## Tokens tile the text -/

/-- The stretches stand one behind the other from `start` to `stop`, and none of them is empty. -/
def Tiles (start stop : Nat) : List Span → Prop
  | [] => start = stop
  | s :: ss => s.start = start ∧ s.start < s.stop ∧ Tiles s.stop stop ss

namespace Tiles

variable {start stop : Nat} {ss us : List Span}

theorem append (h : Tiles start stop (ss ++ us)) :
    ∃ mid, Tiles start mid ss ∧ Tiles mid stop us := by
  induction ss generalizing start with
  | nil => exact ⟨start, rfl, h⟩
  | cons s ss ih =>
    obtain ⟨hstart, hlt, hrest⟩ := h
    obtain ⟨mid, hss, hus⟩ := ih hrest
    exact ⟨mid, ⟨hstart, hlt, hss⟩, hus⟩

theorem le (h : Tiles start stop ss) : start ≤ stop := by
  induction ss generalizing start with
  | nil => exact Nat.le_of_eq h
  | cons s ss ih =>
    obtain ⟨rfl, hlt, hrest⟩ := h
    exact Nat.le_trans (Nat.le_of_lt hlt) (ih hrest)

theorem le_start (h : Tiles start stop ss) : ∀ s ∈ ss, start ≤ s.start := by
  induction ss generalizing start with
  | nil => exact List.forall_mem_nil _
  | cons s ss ih =>
    obtain ⟨rfl, hlt, hrest⟩ := h
    exact List.forall_mem_cons.mpr
      ⟨Nat.le_refl _, fun u hu ↦ Nat.le_trans (Nat.le_of_lt hlt) (ih hrest u hu)⟩

theorem stop_eq {s : Span} (h : Tiles start stop ss) (hs : ss.getLast? = some s) :
    s.stop = stop := by
  induction ss generalizing start with
  | nil => contradiction
  | cons u us ih =>
    obtain ⟨-, -, hrest⟩ := h
    cases us with
    | nil =>
      obtain rfl := Option.some_inj.mp hs
      exact hrest
    | cons v vs => exact ih hrest (by rwa [List.getLast?_cons_cons] at hs)

/-- None of the stretches is empty, and none goes on behind the end. -/
theorem lt_and_le (h : Tiles start stop ss) : ∀ s ∈ ss, s.start < s.stop ∧ s.stop ≤ stop := by
  induction ss generalizing start with
  | nil => exact List.forall_mem_nil _
  | cons s ss ih =>
    obtain ⟨rfl, hlt, hrest⟩ := h
    exact List.forall_mem_cons.mpr ⟨⟨hlt, hrest.le⟩, ih hrest⟩

/-- The stretches stand one behind the other. -/
theorem pairwise (h : Tiles start stop ss) : ss.Pairwise fun s u ↦ s.stop ≤ u.start := by
  induction ss generalizing start with
  | nil => exact .nil
  | cons s ss ih =>
    obtain ⟨rfl, -, hrest⟩ := h
    exact List.pairwise_cons.mpr ⟨hrest.le_start, ih hrest⟩

theorem pairwise_start (h : Tiles start stop ss) : ss.Pairwise fun s u ↦ s.start < u.start :=
  h.pairwise.imp_of_mem fun hs _ hle ↦ Nat.lt_of_lt_of_le (h.lt_and_le _ hs).1 hle

/-- No two stretches that tile a text begin at one place. -/
theorem nodup_start (h : Tiles start stop ss) : (ss.map Span.start).Nodup :=
  List.pairwise_map.mpr (h.pairwise_start.imp Nat.ne_of_lt)

end Tiles

theorem tiles_placeAll {ls : List Lexeme} (h : ∀ l ∈ ls, l.text ≠ []) (start : Nat) :
    Tiles start (start + utf8Length (ls.flatMap Lexeme.text))
      ((Token.placeAll start ls).map Token.span) := by
  induction ls generalizing start with
  | nil => rfl
  | cons l ls ih =>
    have hl := utf8Length_pos (h l List.mem_cons_self)
    have hls := ih (fun m hm ↦ h m (List.mem_cons_of_mem l hm)) (start + utf8Length l.text)
    rw [List.flatMap_cons, utf8Length_append, ← Nat.add_assoc]
    exact ⟨rfl, Nat.lt_add_of_pos_right hl, hls⟩

/-- The tokens of a text tile it. -/
theorem tiles_tokenize (source : String) :
    Tiles 0 source.utf8ByteSize ((tokenize source).map Token.span) := by
  have htext : ∀ l ∈ scan source.toList, l.text ≠ [] := fun _ ↦ text_ne_nil_of_mem_scan
  have h := tiles_placeAll htext 0
  rwa [flatMap_text_scan, utf8Length_toList, Nat.zero_add] at h

/-- The token stands in the text between two boundaries of characters, and its text is what the
text has there. -/
structure Token.Covers (t : Token) (source : String) : Prop where
  /-- The stretch is not empty. -/
  nonempty : t.span.start < t.span.stop
  start_valid : String.Pos.Raw.IsValid source ⟨t.span.start⟩
  stop_valid : String.Pos.Raw.IsValid source ⟨t.span.stop⟩
  /-- What stands between the boundaries is the text of the token. -/
  text : ∃ before after, source.toList = before ++ t.text ++ after ∧
    utf8Length before = t.span.start ∧ utf8Length (before ++ t.text) = t.span.stop

theorem exists_of_mem_placeAll {start : Nat} {ls : List Lexeme} {t : Token}
    (h : t ∈ Token.placeAll start ls) :
    ∃ before after, ls = before ++ t.toLexeme :: after ∧
      t.start = start + utf8Length (before.flatMap Lexeme.text) := by
  induction ls generalizing start with
  | nil => exact absurd h List.not_mem_nil
  | cons l ls ih =>
    rcases List.mem_cons.mp h with rfl | h
    · exact ⟨[], ls, rfl, rfl⟩
    · obtain ⟨before, after, rfl, hstart⟩ := ih h
      refine ⟨l :: before, after, rfl, ?_⟩
      rw [hstart, List.flatMap_cons, utf8Length_append, Nat.add_assoc]

/-- Each token of a text covers a part of it. -/
theorem covers_of_mem_tokenize {source : String} {t : Token} (h : t ∈ tokenize source) :
    t.Covers source := by
  obtain ⟨before, after, hscan, hstart⟩ := exists_of_mem_placeAll h
  have hmem : t.toLexeme ∈ scan source.toList := by
    rw [hscan]
    exact List.mem_append_right before List.mem_cons_self
  have htext := utf8Length_pos (text_ne_nil_of_mem_scan hmem)
  have hsource : source.toList =
      before.flatMap Lexeme.text ++ t.text ++ after.flatMap Lexeme.text := by
    rw [← flatMap_text_scan source.toList, hscan, List.flatMap_append, List.flatMap_cons,
      List.append_assoc]
  have hspan : utf8Length (before.flatMap Lexeme.text) = t.span.start := by
    rw [Token.span, hstart, Nat.zero_add]
  have hstop : utf8Length (before.flatMap Lexeme.text ++ t.text) = t.span.stop := by
    rw [utf8Length_append, hspan]
    rfl
  refine ⟨Nat.lt_add_of_pos_right htext, ?_, ?_, _, _, hsource, hspan, hstop⟩
  · rw [← hspan]
    exact isValid_of_toList_eq (by rw [hsource, List.append_assoc])
  · rw [← hstop]
    exact isValid_of_toList_eq hsource

/-! ## The tree holds the tokens -/

/-- The tree of a text is what the productions built, with trivia and places. -/
theorem tree_parse (source : String) :
    (Document.parse source).tree =
      .node .root (Tree.woven (Production.root (significant source)).trees (tokenize source)) := rfl

theorem exprs_parse (source : String) :
    (Document.parse source).exprs =
      Expr.ofTrees (Tree.woven (Production.root (significant source)).trees (tokenize source)) :=
  rfl

/-- Without its trivia, the tree of a text is what the productions built. -/
theorem bareAll_parse (source : String) :
    (Document.parse source).tree.bare =
      [.node .root (Production.root (significant source)).trees] := by
  rw [tree_parse, Tree.bare, Tree.bareAll_woven]
  exact (Production.leavesAll_trees_root _).symm

/-- **Nothing of a text is lost, and nothing is added.**  The tokens cover the text from its first
byte to its last; the leaves of the tree are the tokens, and so spell out the text; and without
trivia the tree is what the productions built, which have each significant lexeme as a leaf. -/
theorem Document.parse_lossless (source : String) :
    (∀ t ∈ tokenize source, t.Covers source) ∧
      Tiles 0 source.utf8ByteSize ((tokenize source).map Token.span) ∧
      (Document.parse source).tree.leaves = tokenize source ∧
      String.ofList ((Document.parse source).tree.leaves.flatMap (·.text)) = source ∧
      (Document.parse source).tree.bare =
        [.node .root (Production.root (significant source)).trees] ∧
      Tree.leavesAll (Production.root (significant source)).trees = significant source := by
  have hleaves : (Document.parse source).tree.leaves = tokenize source :=
    Tree.leaves_weaveRoot _ _
  have htext : (tokenize source).flatMap (·.text) = source.toList := by
    have hscan := flatMap_text_scan source.toList
    rwa [← Token.map_toLexeme_placeAll 0 (scan source.toList), List.flatMap_map] at hscan
  refine ⟨fun t ↦ covers_of_mem_tokenize, tiles_tokenize source, hleaves, ?_,
    bareAll_parse source, Production.leavesAll_trees_root _⟩
  rw [hleaves, htext, String.ofList_toList]

end Query

end Concord
