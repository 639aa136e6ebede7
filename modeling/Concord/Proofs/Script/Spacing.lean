import Mathlib.Data.List.Chain
import Concord.Proofs.Script.Opaque
import Concord.Proofs.Text.Slice

/-!
# What stands between the tokens of a script

The tokens of a script leave out its trivia, and nothing else: what stands in front of the first
token, between two of them and behind the last one is a row of blanks, line breaks and comments.

* `Trivial` — a run of blanks, a line break or a comment, with what follows it; `Gap` is a row of
  these.  `trivial_of_step` says that all trivia which the lexer cuts is of this form.
* `Spaced` puts tokens and gaps together to a text, and `spaced_tokenize` says that they make up the
  whole source.
* `isChain_tokenize` — two garbage tokens have something between them.
* `tokenize_spaced` puts these together, with the places of the tokens.
-/

set_option autoImplicit false

namespace Concord.Script

/-! ## Trivia -/

/-- A run of blanks, a line break or a comment, with the text `rest` behind it: a line comment goes
on to the end of its line, and a block comment ends at the first mark that closes it. -/
inductive Trivial : (text rest : List Char) → Prop
  | blank {text rest : List Char} (hne : text ≠ []) (h : ∀ c ∈ text, isBlank c = true) :
    Trivial text rest
  | newline {rest : List Char} : Trivial ['\n'] rest
  | comment {text rest : List Char} (h : Hidden (fun _ ↦ True) text rest none) : Trivial text rest

/-- A row of blanks, line breaks and comments, with the text `rest` behind it. -/
inductive Gap : (text rest : List Char) → Prop
  | nil {rest : List Char} : Gap [] rest
  | cons {text gap rest : List Char} (h : Trivial text (gap ++ rest)) (hgap : Gap gap rest) :
    Gap (text ++ gap) rest

/-! ## The trivia that the lexer cuts -/

section Step

variable {cs : List Char}

theorem trivial_of_blank {c : Char} (hc : isBlank c = true) (cs : List Char) :
    Trivial (c :: cs.takeWhile isBlank) (cs.dropWhile isBlank) := by
  refine .blank (List.cons_ne_nil _ _) (List.forall_mem_cons.mpr ⟨hc, fun d hd ↦ ?_⟩)
  exact List.all_eq_true.mp List.all_takeWhile d hd

theorem trivial_of_lineComment (cs : List Char) :
    Trivial ('/' :: '/' :: cs.takeWhile (· != '\n')) (cs.dropWhile (· != '\n')) := by
  refine .comment (.lineComment (fun hbreak ↦ ?_) fun c hc ↦ ?_)
  · have h := List.all_eq_true.mp List.all_takeWhile '\n' hbreak
    contradiction
  · have h := List.head?_dropWhile_not (· != '\n') cs
    rw [Option.mem_def.mp hc] at h
    simpa using h

/-- A block comment ends at the first mark that closes it. -/
theorem exists_first_of_blockBody {body rest : List Char} (h : blockBody cs = some (body, rest)) :
    ∃ front, body = front ++ ['*', '/'] ∧ ¬ ['*', '/'] <:+: front := by
  induction cs generalizing body with
  | nil => simp [blockBody] at h
  | cons c cs ih =>
    rw [blockBody] at h
    split at h
    · cases h
      exact ⟨[], rfl, by simp⟩
    · rename_i hclose
      obtain ⟨⟨tail, _⟩, htail, he⟩ := Option.map_eq_some_iff.mp h
      cases he
      obtain ⟨front, rfl, hfirst⟩ := ih htail
      refine ⟨c :: front, rfl, fun hin ↦ ?_⟩
      rcases List.infix_cons_iff.mp hin with ⟨behind, heq⟩ | hin
      · obtain ⟨rfl, rfl⟩ := List.cons.inj heq
        have happend := blockBody_append htail
        exact hclose ⟨rfl, by rw [← happend]; rfl⟩
      · exact hfirst hin

theorem isTrivia_takeSlash (previous : Option Lexeme) (cs : List Char) :
    (takeSlash previous cs).1.kind.isTrivia = false := by
  rw [takeSlash]
  repeat' split
  all_goals rfl

theorem trivial_takeSlashed (previous : Option Lexeme) (cs : List Char) :
    (takeSlashed previous cs).1.kind.isTrivia = true →
      Trivial (takeSlashed previous cs).1.text (takeSlashed previous cs).2 := by
  have hslash : (takeSlash previous cs).1.kind.isTrivia ≠ true := by
    simp [isTrivia_takeSlash previous cs]
  rw [takeSlashed]
  split
  · rename_i hhead
    obtain ⟨tail, rfl⟩ := List.head?_eq_some_iff.mp hhead
    exact fun _ ↦ trivial_of_lineComment tail
  · split
    · split
      · rename_i hbody
        obtain ⟨front, rfl, hfirst⟩ := exists_first_of_blockBody hbody
        exact fun _ ↦ .comment (.blockComment hfirst)
      · exact fun h ↦ absurd h hslash
    · exact fun h ↦ absurd h hslash

theorem isTrivia_takeLiteral {kind : TokenKind} (hkind : kind.isTrivia = false) (quote : Char)
    (multiline : Bool) (cs : List Char) :
    (takeLiteral kind quote multiline cs).1.kind.isTrivia = false := by
  rw [takeLiteral]
  split
  · exact hkind
  · rfl

theorem isTrivia_takeDots (cs : List Char) : (takeDots cs).1.kind.isTrivia = false := by
  rw [takeDots]
  split <;> rfl

theorem isTrivia_takeOperator (c : Char) (cs : List Char) :
    (takeOperator c cs).1.kind.isTrivia = false := by
  simp only [takeOperator]
  split <;> rfl

/-- **The trivia that the lexer cuts** is a run of blanks, a line break or a comment. -/
theorem trivial_step (previous : Option Lexeme) (c : Char) (cs : List Char) :
    (step previous c cs).1.kind.isTrivia = true →
      Trivial (step previous c cs).1.text (step previous c cs).2 := by
  have solid {l : Lexeme} {rest : List Char} (hl : l.kind.isTrivia = false) :
      l.kind.isTrivia = true → Trivial l.text rest := by simp [hl]
  unfold step
  split
  all_goals first
    | exact solid rfl
    | exact fun _ ↦ .newline
    | exact trivial_takeSlashed previous cs
    | exact solid (isTrivia_takeDots cs)
    | exact solid (isTrivia_takeLiteral rfl _ _ cs)
    | skip
  repeat' split
  all_goals first
    | exact solid (isTrivia_takeOperator _ cs)
    | exact solid rfl
    | exact fun _ ↦ trivial_of_blank ‹_› cs

end Step

/-! ## Trivia among lexemes -/

/-- All trivia among some lexemes is a run of blanks, a line break or a comment in front of the text
that follows. -/
def TrivialIn (ls : List Lexeme) : Prop :=
  ∀ before l after, ls = before ++ l :: after → l.kind.isTrivia = true →
    Trivial l.text (after.flatMap Lexeme.text)

theorem TrivialIn.tail {l : Lexeme} {ls : List Lexeme} (h : TrivialIn (l :: ls)) : TrivialIn ls :=
  fun before m after heq ↦ h (l :: before) m after (congrArg (l :: ·) heq)

theorem trivialIn_pieces (previous : Option Lexeme) (cs : List Char) :
    TrivialIn (pieces previous cs) := by
  fun_induction pieces previous cs with
  | case1 => simp [TrivialIn]
  | case2 previous c cs ih =>
    intro before l after heq hl
    cases before with
    | nil =>
      obtain ⟨rfl, rfl⟩ := List.cons.inj heq
      rw [flatMap_text_pieces]
      exact trivial_step previous c cs hl
    | cons m before => exact ih before l after (List.cons.inj heq).2 hl

theorem trivialIn_scan (cs : List Char) : TrivialIn (scan cs) := by
  intro before l after heq hl
  have hkind : l.kind ≠ .garbage := by
    rintro hgarbage
    rw [hgarbage] at hl
    contradiction
  obtain ⟨front, back, hpieces, -, rfl⟩ := exists_of_joinGarbage_eq hkind heq
  rw [flatMap_text_joinGarbage]
  exact trivialIn_pieces none cs front l back hpieces hl

/-! ## Tokens and gaps -/

/-- From byte `start` on, where a text goes on with `cs`, stand some tokens, with a gap in front of
each of them and one behind the last. -/
inductive Spaced : (start : Nat) → (cs : List Char) → List Token → Prop
  | nil {start : Nat} {gap : List Char} (hgap : Gap gap []) : Spaced start gap []
  | cons {start : Nat} {gap rest : List Char} {t : Token} {ts : List Token}
    (hgap : Gap gap (t.text ++ rest)) (hstart : t.span.start = start + utf8Length gap)
    (h : Spaced t.span.stop rest ts) : Spaced start (gap ++ (t.text ++ rest)) (t :: ts)

namespace Spaced

variable {start : Nat} {text cs : List Char} {ts : List Token}

/-- Trivia makes a gap wider. -/
theorem trivia (htext : Trivial text cs) (h : Spaced (start + utf8Length text) cs ts) :
    Spaced start (text ++ cs) ts := by
  cases h with
  | nil hgap => exact .nil (.cons (by rwa [List.append_nil]) hgap)
  | @cons _ gap rest t ts hgap hstart h =>
    rw [← List.append_assoc]
    refine .cons (.cons htext hgap) ?_ h
    rw [hstart, utf8Length_append, Nat.add_assoc]

end Spaced

theorem spaced_placeAll {ls : List Lexeme} (h : TrivialIn ls) (start : Nat) :
    Spaced start (ls.flatMap Lexeme.text)
      ((Token.placeAll start ls).filter (!·.kind.isTrivia)) := by
  induction ls generalizing start with
  | nil => exact .nil .nil
  | cons l ls ih =>
    have hrest := ih h.tail (start + utf8Length l.text)
    rw [List.flatMap_cons, Token.placeAll]
    cases hl : l.kind.isTrivia with
    | true =>
      rw [List.filter_cons_of_neg (by simp [hl])]
      exact hrest.trivia (h [] l ls rfl hl)
    | false =>
      rw [List.filter_cons_of_pos (by simp [hl])]
      exact .cons (t := ⟨l, start⟩) .nil rfl hrest

/-- **Nothing but gaps stands between the tokens of a script.** -/
theorem spaced_tokenize (source : String) : Spaced 0 source.toList (tokenize source) := by
  have h := spaced_placeAll (trivialIn_scan source.toList) 0
  rwa [flatMap_text_scan] at h

/-! ### What is in front of, between and behind tokens -/

namespace Spaced

variable {start : Nat} {cs : List Char} {ts : List Token}

theorem gap_of_nil (h : Spaced start cs []) : Gap cs [] := by
  cases h with
  | nil hgap => exact hgap

/-- The gap in front of the first token. -/
theorem exists_front {t : Token} (h : Spaced start cs (t :: ts)) :
    ∃ gap rest, cs = gap ++ (t.text ++ rest) ∧ Gap gap (t.text ++ rest) ∧
      t.span.start = start + utf8Length gap ∧ Spaced t.span.stop rest ts := by
  cases h with
  | cons hgap hstart h => exact ⟨_, _, rfl, hgap, hstart, h⟩

/-- What follows a token begins with a gap again. -/
theorem exists_behind {before : List Token} {t : Token} (h : Spaced start cs (before ++ t :: ts)) :
    ∃ front rest, cs = front ++ (t.text ++ rest) ∧ t.span.start = start + utf8Length front ∧
      Spaced t.span.stop rest ts := by
  induction before generalizing start cs with
  | nil =>
    obtain ⟨gap, rest, rfl, -, hstart, h⟩ := h.exists_front
    exact ⟨gap, rest, rfl, hstart, h⟩
  | cons u before ih =>
    obtain ⟨gap, rest, rfl, -, hstart, h⟩ := h.exists_front
    obtain ⟨front, rest, rfl, hfront, h⟩ := ih h
    refine ⟨gap ++ (u.text ++ front), rest, by simp, ?_, h⟩
    have hstop : u.span.stop = u.span.start + utf8Length u.text := rfl
    rw [hfront, hstop, hstart, utf8Length_append, utf8Length_append]
    omega

end Spaced

/-! ## Garbage is kept apart -/

/-- Of two lexemes side by side, one is no garbage. -/
def Apart (k k' : TokenKind) : Prop := ¬ (k = .garbage ∧ k' = .garbage)

theorem isChain_joinGarbage (ls : List Lexeme) :
    (joinGarbage ls).IsChain fun l m ↦ Apart l.kind m.kind := by
  induction ls with
  | nil => exact .nil
  | cons l ls ih =>
    rw [joinGarbage]
    cases hjoin : joinGarbage ls with
    | nil => exact .singleton l
    | cons m ms =>
      rw [hjoin] at ih
      dsimp only
      split
      · rename_i hkinds
        -- the joined lexeme is garbage, as `m` is
        rw [List.isChain_cons] at ih ⊢
        refine ⟨fun n hn hapart ↦ ih.1 n hn ⟨hkinds.2, hapart.2⟩, ih.2⟩
      · rename_i hkinds
        exact .cons_cons hkinds ih

/-- Garbage that is not side by side has something between it. -/
theorem isChain_placeAll {ls : List Lexeme} (hne : ∀ l ∈ ls, l.text ≠ [])
    (h : ls.IsChain fun l m ↦ Apart l.kind m.kind) (start : Nat) :
    ((Token.placeAll start ls).filter (!·.kind.isTrivia)).IsChain fun t u ↦
      t.kind = .garbage → u.kind = .garbage → t.span.stop < u.span.start := by
  induction ls generalizing start with
  | nil => exact .nil
  | cons l ls ih =>
    have hrest := ih (fun m hm ↦ hne m (List.mem_cons_of_mem l hm)) h.tail
      (start + utf8Length l.text)
    rw [Token.placeAll]
    cases hl : l.kind.isTrivia with
    | true => rwa [List.filter_cons_of_neg (by simp [hl])]
    | false =>
      rw [List.filter_cons_of_pos (by simp [hl]), List.isChain_cons]
      refine ⟨fun u hu ht hgarbage ↦ ?_, hrest⟩
      cases ls with
      | nil => contradiction
      | cons m ms =>
        rw [Token.placeAll] at hu
        cases hm : m.kind.isTrivia with
        | true =>
          -- the trivia in between has a text
          rw [List.filter_cons_of_neg (by simp [hm])] at hu
          have hle := le_start_of_mem_placeAll (List.mem_filter.mp (List.mem_of_mem_head? hu)).1
          have hpos := utf8Length_pos (hne m (by simp))
          exact Nat.lt_of_lt_of_le (Nat.lt_add_of_pos_right hpos) hle
        | false =>
          rw [List.filter_cons_of_pos (by simp [hm])] at hu
          obtain rfl := Option.some_inj.mp hu
          exact absurd ⟨ht, hgarbage⟩ ((List.isChain_cons_cons.mp h).1)

/-- **Garbage does not stand beside garbage.** -/
theorem isChain_tokenize (source : String) :
    (tokenize source).IsChain fun t u ↦
      t.kind = .garbage → u.kind = .garbage → t.span.stop < u.span.start :=
  isChain_placeAll (fun _ ↦ text_ne_nil_of_mem_scan) (isChain_joinGarbage _) 0

/-- Side by side, two signs that begin no token are one; with a blank in between, they are two. -/
example : (tokenize "## #").map Token.span = [⟨0, 2⟩, ⟨3, 4⟩] := by decide +kernel

/-! ## A whole script -/

/-- A token can be cut out of its source. -/
theorem sliceable_of_mem_tokenize {source : String} {t : Token} (h : t ∈ tokenize source) :
    t.span.Sliceable source := by
  obtain ⟨front, back, hsource, hspan⟩ := textAt_of_mem_tokenize h
  rw [hspan]
  exact Span.sliceable_of_toList_eq hsource

/-- **The tokens of a script leave out nothing but trivia**, whatever the text is.  They are not
empty, stand one behind the other within the source, each from one boundary of characters to
another, and none of them is trivia.  What the source has in front of them, between two of them and
behind them is a row of blanks, line breaks and comments; and that is not empty between two garbage
tokens. -/
theorem tokenize_spaced (source : String) :
    (∀ t ∈ tokenize source, t.span.start < t.span.stop ∧ t.span.Sliceable source ∧
        TextAt source t.span t.text ∧ t.kind.isTrivia = false) ∧
      ((tokenize source).Pairwise fun t u ↦ t.span.stop ≤ u.span.start) ∧
      (tokenize source = [] → Gap source.toList []) ∧
      (∀ t after, tokenize source = t :: after →
        ∃ gap back, source.toList = gap ++ (t.text ++ back) ∧ Gap gap (t.text ++ back) ∧
          t.span.start = utf8Length gap) ∧
      (∀ before t u after, tokenize source = before ++ t :: u :: after →
        ∃ front gap back, source.toList = front ++ (t.text ++ (gap ++ (u.text ++ back))) ∧
          Gap gap (u.text ++ back) ∧ t.span.start = utf8Length front ∧
          u.span.start = t.span.stop + utf8Length gap ∧
          (t.kind = .garbage → u.kind = .garbage → gap ≠ [])) ∧
      ∀ before t, tokenize source = before ++ [t] →
        ∃ front gap, source.toList = front ++ (t.text ++ gap) ∧ Gap gap [] ∧
          t.span.start = utf8Length front := by
  have hspaced := spaced_tokenize source
  refine ⟨fun t ht ↦ ⟨start_lt_stop_of_mem_tokenize ht, sliceable_of_mem_tokenize ht,
    textAt_of_mem_tokenize ht, by simpa using (List.mem_filter.mp ht).2⟩,
    pairwise_tokenize source, fun hnil ↦ ?_, fun t after heq ↦ ?_, fun before t u after heq ↦ ?_,
    fun before t heq ↦ ?_⟩
  · rw [hnil] at hspaced
    exact hspaced.gap_of_nil
  · rw [heq] at hspaced
    obtain ⟨gap, back, hsource, hgap, hstart, -⟩ := hspaced.exists_front
    exact ⟨gap, back, hsource, hgap, by rw [hstart, Nat.zero_add]⟩
  · rw [heq] at hspaced
    obtain ⟨front, rest, hsource, hstart, h⟩ := hspaced.exists_behind
    obtain ⟨gap, back, rfl, hgap, hstart', -⟩ := h.exists_front
    refine ⟨front, gap, back, hsource, hgap, by rw [hstart, Nat.zero_add], hstart',
      fun ht hu hnil ↦ ?_⟩
    have hchain := isChain_tokenize source
    rw [heq, List.isChain_append] at hchain
    have hlt := (List.isChain_cons_cons.mp hchain.2.1).1 ht hu
    rw [hstart', hnil] at hlt
    exact Nat.lt_irrefl _ hlt
  · rw [heq] at hspaced
    obtain ⟨front, rest, hsource, hstart, h⟩ := hspaced.exists_behind
    exact ⟨front, rest, hsource, h.gap_of_nil, by rw [hstart, Nat.zero_add]⟩

end Concord.Script
