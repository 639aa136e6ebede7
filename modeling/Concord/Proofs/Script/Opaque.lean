import Concord.Proofs.Run
import Concord.Proofs.Script.Places
import Concord.Proofs.Text.Escaped

/-!
# What is hidden from the scan

A literal or a comment that begins where the lexer begins a lexeme is cut off as one piece, so the
scan sees nothing of what it holds.

* `Hidden` — the literals and comments, by how they are written and what follows them.  What stands
  between the quotes of a literal is `Escaped`.
* `SeenAs` — what the tokens of a source show of a stretch: one token that covers it, or none.
* `pieces_behind` and `seenAs_of_step` — where the lexer has come to the end of some lexemes, it
  goes on with what follows, and what it cuts there is what the tokens show.

`seenAs_iff_hidden` puts these together.  A literal is hidden unless it goes on in the next line
behind a backslash: the lexer gives such a literal up at the line break (`not_seenAs_continued`).
-/

set_option autoImplicit false

namespace Concord.Script

/-! ## Where the lexer begins a lexeme -/

/-- The lexeme that decides what a slash is behind these lexemes. -/
def lastSignificant (ls : List Lexeme) : Option Lexeme := (ls.filter (!·.kind.isTrivia)).getLast?

theorem lastSignificant_cons (l : Lexeme) (ls : List Lexeme) (previous : Option Lexeme) :
    (lastSignificant (l :: ls)).or previous =
      (lastSignificant ls).or (previousAfter previous l) := by
  rw [lastSignificant, lastSignificant, previousAfter, List.filter_cons]
  cases hl : l.kind.isTrivia
  · cases ls.filter (!·.kind.isTrivia) <;> simp [List.getLast?_cons]
  · simp

/-- **The lexer goes on** behind the lexemes that it has cut. -/
theorem pieces_behind {before : List Lexeme} {previous : Option Lexeme} {rest : List Char}
    (h : before <+: pieces previous (before.flatMap Lexeme.text ++ rest)) :
    pieces previous (before.flatMap Lexeme.text ++ rest) =
      before ++ pieces ((lastSignificant before).or previous) rest := by
  induction before generalizing previous with
  | nil => rfl
  | cons l before ih =>
    rw [List.flatMap_cons, List.append_assoc] at h ⊢
    cases hl : l.text ++ (before.flatMap Lexeme.text ++ rest) with
    | nil =>
      rw [hl, pieces] at h
      simp at h
    | cons c cs =>
      rw [hl, pieces, List.cons_prefix_cons] at h
      obtain ⟨hstep, h⟩ := h
      have happend := step_append previous c cs
      rw [← hstep, ← hl] at happend
      have hrest := List.append_cancel_left happend
      rw [hrest, ← hstep] at h
      rw [pieces, ← hstep, hrest, ih h, lastSignificant_cons, List.cons_append]

/-! ## Garbage is joined apart from other lexemes -/

theorem joinGarbage_cons_of_ne {l : Lexeme} (hl : l.kind ≠ .garbage) (ls : List Lexeme) :
    joinGarbage (l :: ls) = l :: joinGarbage ls := by
  rw [joinGarbage]
  cases joinGarbage ls with
  | nil => rfl
  | cons m ms => simp [hl]

theorem joinGarbage_append_cons {l : Lexeme} (hl : l.kind ≠ .garbage) (before after : List Lexeme) :
    joinGarbage (before ++ l :: after) = joinGarbage before ++ l :: joinGarbage after := by
  induction before with
  | nil => exact joinGarbage_cons_of_ne hl after
  | cons m before ih =>
    rw [List.cons_append, joinGarbage, ih, joinGarbage]
    cases joinGarbage before with
    | nil => simp [hl]
    | cons n ns =>
      dsimp only [List.cons_append]
      split <;> rfl

/-- A lexeme stands for itself, or it is joined to the garbage behind it. -/
theorem joinGarbage_cons_cases (l : Lexeme) (ls : List Lexeme) :
    joinGarbage (l :: ls) = l :: joinGarbage ls ∨
      ∃ text ms, joinGarbage ls = ⟨.garbage, text⟩ :: ms ∧
        joinGarbage (l :: ls) = ⟨.garbage, l.text ++ text⟩ :: ms := by
  rw [joinGarbage]
  cases joinGarbage ls with
  | nil => exact .inl rfl
  | cons m ms =>
    dsimp only
    split
    · rename_i hkinds
      obtain ⟨kind, text⟩ := m
      obtain rfl : kind = .garbage := hkinds.2
      exact .inr ⟨text, ms, rfl, rfl⟩
    · exact .inl rfl

/-- What is no garbage was not joined, and what stands before and behind it was joined apart. -/
theorem exists_of_joinGarbage_eq {ls before after : List Lexeme} {l : Lexeme}
    (hl : l.kind ≠ .garbage) (h : joinGarbage ls = before ++ l :: after) :
    ∃ front back, ls = front ++ l :: back ∧ joinGarbage front = before ∧
      joinGarbage back = after := by
  induction ls generalizing before with
  | nil => simp [joinGarbage] at h
  | cons m ms ih =>
    -- what is in front of `l` is told by what is behind it, as the rest is joined apart
    have hcut : ∀ before', joinGarbage ms = before' ++ l :: after → ∃ front back,
        m :: ms = front ++ l :: back ∧ joinGarbage front = before ∧ joinGarbage back = after := by
      intro before' hms
      obtain ⟨front, back, rfl, -, hback⟩ := ih hms
      refine ⟨m :: front, back, rfl, ?_, hback⟩
      rw [← List.cons_append, joinGarbage_append_cons hl, hback] at h
      exact List.append_cancel_right h
    rcases joinGarbage_cons_cases m ms with hjoin | ⟨text, ns, hms, hjoin⟩
    · rw [hjoin] at h
      cases before with
      | nil =>
        obtain ⟨rfl, hafter⟩ := List.cons.inj h
        exact ⟨[], ms, rfl, rfl, hafter⟩
      | cons n before => exact hcut before (List.cons.inj h).2
    · rw [hjoin] at h
      cases before with
      | nil => exact absurd (congrArg Lexeme.kind (List.cons.inj h).1).symm hl
      | cons n before =>
        obtain ⟨-, rfl⟩ := List.cons.inj h
        exact hcut (⟨.garbage, text⟩ :: before) hms

/-! ## What the tokens show -/

theorem Token.placeAll_append (start : Nat) (before after : List Lexeme) :
    Token.placeAll start (before ++ after) =
      Token.placeAll start before ++
        Token.placeAll (start + utf8Length (before.flatMap Lexeme.text)) after := by
  induction before generalizing start with
  | nil => rfl
  | cons l before ih =>
    rw [List.cons_append, Token.placeAll, ih, Token.placeAll, List.flatMap_cons, utf8Length_append,
      Nat.add_assoc, List.cons_append]

theorem stop_le_of_mem_placeAll {start : Nat} {ls : List Lexeme} {t : Token}
    (h : t ∈ Token.placeAll start ls) :
    t.span.stop ≤ start + utf8Length (ls.flatMap Lexeme.text) := by
  obtain ⟨before, after, rfl, hstart⟩ := exists_of_mem_placeAll h
  simp only [Token.span, List.flatMap_append, List.flatMap_cons, utf8Length_append]
  omega

/-- What the tokens of a source show of a stretch with some text in front of it: all of them end
before it or begin behind it, but for one that covers it if a kind is given. -/
def SeenAs (source : String) (front text : List Char) (kind : Option TokenKind) : Prop :=
  ∃ before after : List Token,
    tokenize source =
        before ++ (kind.map fun k ↦ ⟨⟨k, text⟩, utf8Length front⟩).toList ++ after ∧
      (∀ t ∈ before, t.span.stop ≤ utf8Length front) ∧
        ∀ t ∈ after, utf8Length (front ++ text) ≤ t.span.start

theorem SeenAs.mem_tokenize {source : String} {front text : List Char} {kind : TokenKind}
    (h : SeenAs source front text (some kind)) :
    ⟨⟨kind, text⟩, utf8Length front⟩ ∈ tokenize source := by
  obtain ⟨before, after, htokens, -⟩ := h
  rw [htokens]
  simp

/-- A piece that is no garbage is shown by itself, if it is significant. -/
theorem seenAs_of_pieces {source : String} {before after : List Lexeme} {l : Lexeme}
    (hl : l.kind ≠ .garbage) (h : pieces none source.toList = before ++ l :: after) :
    SeenAs source (before.flatMap Lexeme.text) l.text
      (if l.kind.isTrivia then none else some l.kind) := by
  have hfront : 0 + utf8Length ((joinGarbage before).flatMap Lexeme.text) =
      utf8Length (before.flatMap Lexeme.text) := by
    rw [flatMap_text_joinGarbage, Nat.zero_add]
  refine ⟨(Token.placeAll 0 (joinGarbage before)).filter (!·.kind.isTrivia),
    (Token.placeAll (utf8Length (before.flatMap Lexeme.text) + utf8Length l.text)
      (joinGarbage after)).filter (!·.kind.isTrivia), ?_, fun t ht ↦ ?_, fun t ht ↦ ?_⟩
  · rw [tokenize, scan, h, joinGarbage_append_cons hl, Token.placeAll_append, hfront,
      Token.placeAll, List.filter_append, List.filter_cons, List.append_assoc]
    cases l.kind.isTrivia <;> rfl
  · rw [← hfront]
    exact stop_le_of_mem_placeAll (List.mem_filter.mp ht).1
  · rw [utf8Length_append]
    exact le_start_of_mem_placeAll (List.mem_filter.mp ht).1

/-- No lexeme that holds something can be left out of a stretch. -/
theorem eq_of_front {as bs : List Lexeme} (h : as <+: bs) (hbs : ∀ l ∈ bs, l.text ≠ [])
    (hlength : utf8Length (as.flatMap Lexeme.text) = utf8Length (bs.flatMap Lexeme.text)) :
    as = bs := by
  obtain ⟨cs, rfl⟩ := h
  cases cs with
  | nil => exact (List.append_nil as).symm
  | cons l cs =>
    have hl := utf8Length_pos (hbs l (List.mem_append_right as List.mem_cons_self))
    rw [List.flatMap_append, List.flatMap_cons, utf8Length_append, utf8Length_append] at hlength
    omega

section Boundary

variable {source : String} {before : List Lexeme} (hbefore : before <+: pieces none source.toList)
include hbefore

/-- **What is cut behind some lexemes** is what the tokens show there. -/
theorem seenAs_of_step {c : Char} {cs rest : List Char} {l : Lexeme}
    (hsource : source.toList = before.flatMap Lexeme.text ++ c :: cs)
    (hstep : step (lastSignificant before) c cs = (l, rest)) (hl : l.kind ≠ .garbage) :
    before ++ [l] <+: pieces none source.toList ∧
      SeenAs source (before.flatMap Lexeme.text) l.text
        (if l.kind.isTrivia then none else some l.kind) := by
  have hpieces : pieces none source.toList =
      before ++ l :: pieces (previousAfter (lastSignificant before) l) rest := by
    rw [hsource] at hbefore ⊢
    rw [pieces_behind hbefore, Option.or_none, pieces, hstep]
  refine ⟨?_, seenAs_of_pieces hl hpieces⟩
  rw [hpieces]
  exact ⟨_, List.append_assoc before [l] _⟩

/-- A token that is no garbage has been cut where it stands. -/
theorem step_of_mem_tokenize {c : Char} {cs : List Char} {l : Lexeme}
    (hsource : source.toList = before.flatMap Lexeme.text ++ c :: cs)
    (ht : ⟨l, utf8Length (before.flatMap Lexeme.text)⟩ ∈ tokenize source) (hl : l.kind ≠ .garbage) :
    (step (lastSignificant before) c cs).1 = l := by
  obtain ⟨front, back, hscan, hstart⟩ := exists_of_mem_placeAll (List.mem_filter.mp ht).1
  obtain ⟨front', back', hpieces, hjoin, -⟩ := exists_of_joinGarbage_eq hl hscan
  have hfronts : front' <+: pieces none source.toList := hpieces ▸ List.prefix_append _ _
  have hlength : utf8Length (before.flatMap Lexeme.text) =
      utf8Length (front'.flatMap Lexeme.text) := by
    rw [← flatMap_text_joinGarbage front', hjoin,
      ← Nat.zero_add (utf8Length (front.flatMap Lexeme.text))]
    exact hstart
  have hfront : before = front' := by
    have hne := text_ne_nil_of_mem_pieces none source.toList
    rcases List.prefix_or_prefix_of_prefix hbefore hfronts with h | h
    · exact eq_of_front h (fun l hl ↦ hne l (hfronts.subset hl)) hlength
    · exact (eq_of_front h (fun l hl ↦ hne l (hbefore.subset hl)) hlength.symm).symm
  rw [hsource] at hbefore hpieces
  rw [pieces_behind hbefore, Option.or_none, pieces, hfront] at hpieces
  rw [hfront]
  exact (List.cons.inj (List.append_cancel_left hpieces)).1

end Boundary

/-! ## Literals and comments -/

/-- A literal or a comment with a text behind it, and the kind of token that it is to be, if it is
one.  `behind` says what may stand behind a backslash in a literal. -/
inductive Hidden (behind : Char → Prop) : (text rest : List Char) → Option TokenKind → Prop
  | string {quote : Char} {body rest : List Char} (hquote : quote = '"' ∨ quote = '\x27')
    (hbody : Escaped (IsPlain quote false) behind body) :
    Hidden behind (quote :: (body ++ [quote])) rest (some .string)
  | template {body rest : List Char} (hbody : Escaped (IsPlain '\x60' true) behind body) :
    Hidden behind ('\x60' :: (body ++ ['\x60'])) rest (some .template)
  | lineComment {body rest : List Char} (hbody : '\n' ∉ body)
    (hrest : ∀ c ∈ rest.head?, c = '\n') : Hidden behind ('/' :: '/' :: body) rest none
  | blockComment {body rest : List Char} (hbody : ¬ ['*', '/'] <:+: body) :
    Hidden behind ('/' :: '*' :: (body ++ ['*', '/'])) rest none

theorem takeLiteral_eq {kind : TokenKind} {quote : Char} {multiline : Bool}
    (hquote : quote ≠ '\\') {body : List Char}
    (hbody : Escaped (IsPlain quote multiline) (· ≠ '\n') body) (rest : List Char) :
    takeLiteral kind quote multiline (body ++ quote :: rest) =
      (⟨kind, quote :: (body ++ [quote])⟩, rest) := by
  rw [takeLiteral, (literalBody_eq_iff hquote).mpr ⟨hbody, rfl⟩]

theorem escaped_of_takeLiteral {kind : TokenKind} {quote : Char} {multiline : Bool}
    (hquote : quote ≠ '\\') (hkind : kind ≠ .garbage) {cs body : List Char}
    (h : (takeLiteral kind quote multiline cs).1 = ⟨kind, quote :: (body ++ [quote])⟩) :
    Escaped (IsPlain quote multiline) (· ≠ '\n') body := by
  rw [takeLiteral] at h
  split at h
  · rename_i body' rest heq
    obtain ⟨-, htext⟩ := Lexeme.mk.inj h
    obtain rfl : body' = body := List.append_cancel_right (List.cons.inj htext).2
    exact escaped_of_literalBody hquote heq
  · exact absurd (congrArg Lexeme.kind h).symm hkind

theorem takeRun_lineComment {body rest : List Char} (hbody : '\n' ∉ body)
    (hrest : ∀ c ∈ rest.head?, c = '\n') :
    takeRun .lineComment ['/'] (· != '\n') ('/' :: body ++ rest) =
      (⟨.lineComment, '/' :: '/' :: body⟩, rest) := by
  have hbody : ∀ c ∈ '/' :: body, (c != '\n') = true := by
    intro c hc
    rcases List.mem_cons.mp hc with rfl | hc
    · rfl
    · exact bne_iff_ne.mpr fun heq ↦ hbody (heq ▸ hc)
  have hrest : ∀ c ∈ rest.head?, (c != '\n') = false := fun c hc ↦ by simp [hrest c hc]
  obtain ⟨htake, hdrop⟩ := run_eq hbody hrest
  rw [takeRun, htake, hdrop]
  rfl

/-- A block comment ends at the first mark that closes it. -/
theorem blockBody_eq {body : List Char} (h : ¬ ['*', '/'] <:+: body) (rest : List Char) :
    blockBody (body ++ '*' :: '/' :: rest) = some (body ++ ['*', '/'], rest) := by
  induction body with
  | nil => rw [List.nil_append, blockBody]; simp
  | cons c body ih =>
    have hclose : ¬ (c = '*' ∧ (body ++ '*' :: '/' :: rest).head? = some '/') := by
      rintro ⟨rfl, hhead⟩
      cases body with
      | nil => simp at hhead
      | cons d body =>
        obtain rfl : d = '/' := Option.some_inj.mp hhead
        exact h ⟨[], body, rfl⟩
    have hbody : ¬ ['*', '/'] <:+: body := fun hin ↦ h (hin.trans (List.suffix_cons c body).isInfix)
    rw [List.cons_append, blockBody, if_neg hclose, ih hbody]
    rfl

theorem takeSlashed_blockComment {body : List Char} (h : ¬ ['*', '/'] <:+: body)
    (previous : Option Lexeme) (rest : List Char) :
    takeSlashed previous ('*' :: (body ++ '*' :: '/' :: rest)) =
      (⟨.blockComment, '/' :: '*' :: (body ++ ['*', '/'])⟩, rest) := by
  rw [takeSlashed, List.head?_cons, if_neg (by decide), if_pos rfl, List.tail_cons, blockBody_eq h]

theorem step_quote {quote : Char} (hquote : quote = '"' ∨ quote = '\x27')
    (previous : Option Lexeme) (cs : List Char) :
    step previous quote cs = takeLiteral .string quote false cs := by
  rcases hquote with rfl | rfl <;> rfl

theorem ne_backslash_of_quote {quote : Char} (hquote : quote = '"' ∨ quote = '\x27') :
    quote ≠ '\\' := by
  rcases hquote with rfl | rfl <;> decide

namespace Hidden

variable {text rest : List Char} {kind : Option TokenKind}

/-- The lexer cuts off a literal or a comment. -/
theorem exists_step (h : Hidden (· ≠ '\n') text rest kind) (previous : Option Lexeme) :
    ∃ c cs l, text ++ rest = c :: cs ∧ step previous c cs = (l, rest) ∧ l.kind ≠ .garbage ∧
      l.text = text ∧ kind = if l.kind.isTrivia then none else some l.kind := by
  cases h with
  | @string quote body _ hquote hbody =>
    refine ⟨quote, body ++ quote :: rest, ⟨.string, _⟩, by simp, ?_, by simp, rfl, rfl⟩
    rw [step_quote hquote, takeLiteral_eq (ne_backslash_of_quote hquote) hbody]
  | @template body _ hbody =>
    refine ⟨'\x60', body ++ '\x60' :: rest, ⟨.template, _⟩, by simp, ?_, by simp, rfl, rfl⟩
    exact takeLiteral_eq (by decide) hbody rest
  | @lineComment body _ hbody hrest =>
    exact ⟨'/', _, ⟨.lineComment, _⟩, rfl, takeRun_lineComment hbody hrest, by simp, rfl, rfl⟩
  | @blockComment body _ hbody =>
    refine ⟨'/', '*' :: (body ++ '*' :: '/' :: rest), ⟨.blockComment, _⟩, by simp, ?_, by simp, rfl,
      rfl⟩
    exact takeSlashed_blockComment hbody previous rest

/-- A literal that the lexer cuts off has no line break behind a backslash. -/
theorem of_step {behind : Char → Prop} {k : TokenKind} (h : Hidden behind text rest (some k))
    {previous : Option Lexeme}
    (hstep : ∀ c cs, text ++ rest = c :: cs → (step previous c cs).1 = ⟨k, text⟩) :
    Hidden (· ≠ '\n') text rest (some k) := by
  cases h with
  | @string quote body _ hquote _ =>
    have hcut := hstep quote (body ++ [quote] ++ rest) rfl
    rw [step_quote hquote] at hcut
    exact .string hquote (escaped_of_takeLiteral (ne_backslash_of_quote hquote) (by simp) hcut)
  | @template body _ _ =>
    have hcut := hstep '\x60' (body ++ ['\x60'] ++ rest) rfl
    exact .template (escaped_of_takeLiteral (by decide) (by simp) hcut)

theorem kind_ne_garbage {behind : Char → Prop} {k : TokenKind}
    (h : Hidden behind text rest (some k)) : k ≠ .garbage := by
  cases h <;> simp

theorem of_comment {behind : Char → Prop} (h : Hidden behind text rest none) :
    Hidden (· ≠ '\n') text rest none := by
  cases h with
  | lineComment hbody hrest => exact .lineComment hbody hrest
  | blockComment hbody => exact .blockComment hbody

end Hidden

/-- **Literals and comments are hidden from the scan**, wherever the lexer begins a lexeme, but for
literals with a backslash in front of a line break. -/
theorem seenAs_iff_hidden {source : String} {before : List Lexeme} {text rest : List Char}
    {kind : Option TokenKind} (hbefore : before <+: pieces none source.toList)
    (hsource : source.toList = before.flatMap Lexeme.text ++ text ++ rest)
    (htext : Hidden (fun _ ↦ True) text rest kind) :
    SeenAs source (before.flatMap Lexeme.text) text kind ↔ Hidden (· ≠ '\n') text rest kind := by
  rw [List.append_assoc] at hsource
  constructor
  · intro hseen
    cases kind with
    | none => exact htext.of_comment
    | some k =>
      have hstep : ∀ c cs, text ++ rest = c :: cs →
          (step (lastSignificant before) c cs).1 = ⟨k, text⟩ := by
        intro c cs hcs
        rw [hcs] at hsource
        exact step_of_mem_tokenize hbefore hsource hseen.mem_tokenize htext.kind_ne_garbage
      exact htext.of_step hstep
  · intro hhidden
    obtain ⟨c, cs, l, hcs, hstep, hl, rfl, rfl⟩ := hhidden.exists_step (lastSignificant before)
    rw [hcs] at hsource
    exact (seenAs_of_step hbefore hsource hstep hl).2

/-- Delimiters, a comma and a reference in a string, behind a comment with a brace. -/
theorem seenAs_iff_hidden_string :
    let source := "seq(/* \x7b */ '), $.x \\' \x7d', b)"
    let before : List Lexeme := [⟨.ident, "seq".toList⟩, ⟨.opening .paren, ['(']⟩,
      ⟨.blockComment, "/* \x7b */".toList⟩, ⟨.blank, [' ']⟩]
    let text := "'), $.x \\' \x7d'".toList
    before <+: pieces none source.toList ∧
      source.toList = before.flatMap Lexeme.text ++ text ++ ", b)".toList ∧
        Hidden (fun _ ↦ True) text ", b)".toList (some .string) ∧
          SeenAs source "seq(/* \x7b */ ".toList text (some .string) := by
  intro source before text
  have hbefore : before <+: pieces none source.toList := by decide +kernel
  have hsource : source.toList = before.flatMap Lexeme.text ++ text ++ ", b)".toList := by
    decide +kernel
  have hliteral : literalBody '\x27' false (text.tail ++ ", b)".toList) =
      (text.tail.dropLast, true, ", b)".toList) := by decide +kernel
  have hbody := escaped_of_literalBody (by decide) hliteral
  have htext : Hidden (fun _ ↦ True) text ", b)".toList (some .string) :=
    .string (.inr rfl) (hbody.mono fun _ _ ↦ trivial)
  exact ⟨hbefore, hsource, htext,
    (seenAs_iff_hidden hbefore hsource htext).mpr (.string (.inr rfl) hbody)⟩

/-- A string that goes on in the next line is given up there, and the brace in it is seen. -/
theorem not_seenAs_continued :
    let source := "'\\\n\x7b'"
    let text := ['\x27', '\\', '\n', '\x7b', '\x27']
    [] <+: pieces none source.toList ∧ source.toList = text ∧
      Hidden (fun _ ↦ True) text [] (some .string) ∧ ¬ SeenAs source [] text (some .string) ∧
        ⟨⟨.opening .brace, ['\x7b']⟩, 3⟩ ∈ tokenize source := by
  intro source text
  have hbody : Escaped (IsPlain '\x27' false) (fun _ ↦ True) ['\\', '\n', '\x7b'] :=
    .pair trivial (.plain ⟨by decide, by decide, by decide⟩ .nil)
  refine ⟨List.nil_prefix, by decide, .string (.inr rfl) hbody, fun hseen ↦ ?_, by decide +kernel⟩
  exact absurd hseen.mem_tokenize (by decide +kernel)

end Concord.Script
