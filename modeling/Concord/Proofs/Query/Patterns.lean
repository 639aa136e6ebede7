import Mathlib.Data.Char
import Mathlib.Order.Interval.Set.Basic
import Concord.Proofs.Language
import Concord.Proofs.Query.Cutting
import Concord.Proofs.Text.Escaped

/-!
# The patterns of query tokens

Each kind of token is declared by a pattern.  Here the patterns are given as formal languages, in
the way they are declared, and their texts are told by the character classes of the lexer.

* `TokenClass.language` — the patterns, one for each kind of token but quotes, values and garbage,
  and one for string literals.
* `mem_captureName_iff` and the like — the texts of a pattern, character by character.
* `classOf_of_mem` — the first character of a match tells its pattern, except that an underscore
  begins the texts of two.
-/

set_option autoImplicit false

open Computability

namespace Concord.Query

/-! ## The patterns -/

/-- One character of a set. -/
def oneOf (s : Set Char) : Language Char := {w | ∃ c ∈ s, w = [c]}

/-- The letters of ASCII. -/
def letters : Set Char := Set.Icc 'a' 'z' ∪ Set.Icc 'A' 'Z'

/-- The digits of ASCII. -/
def digits : Set Char := Set.Icc '0' '9'

/-- What the name of a capture or a predicate begins with. -/
def nameStarts : Set Char := letters ∪ {'_'}

/-- The characters of words. -/
def wordParts : Set Char := letters ∪ digits ∪ {'_'}

/-- The characters of the names of predicates, before the closing mark. -/
def dashedParts : Set Char := wordParts ∪ {'-'}

/-- The characters of dotted names. -/
def dottedParts : Set Char := wordParts ∪ {'.', '-'}

/-- Blanks within a line. -/
def blanks : Set Char := {' ', '\t', '\r'}

/-- What a pattern is declared for. -/
inductive TokenClass where
  /-- A kind of token. -/
  | ofKind (k : TokenKind)
  /-- String literals, which come out as more than one token. -/
  | literal

open TokenClass in
/-- The texts that match the pattern.  Quotes and values are made from string literals, and garbage
is what is left, so there is no pattern for them. -/
def TokenClass.language : TokenClass → Language Char
  | ofKind .parenOpen => oneOf {'('}
  | ofKind .parenClose => oneOf {')'}
  | ofKind .bracketOpen => oneOf {'['}
  | ofKind .bracketClose => oneOf {']'}
  | ofKind .colon => oneOf {':'}
  | ofKind .bang => oneOf {'!'}
  | ofKind .underscore => oneOf {'_'}
  | ofKind .dot => oneOf {'.'}
  | ofKind .star => oneOf {'*'}
  | ofKind .plus => oneOf {'+'}
  | ofKind .question => oneOf {'?'}
  | ofKind .slash => oneOf {'/'}
  | literal => oneOf {'"'} * (oneOf {'"', '\\'}ᶜ + oneOf {'\\'} * oneOf {'\n'}ᶜ)∗ * oneOf {'"'}
  | ofKind .captureName => oneOf {'@'} * oneOf nameStarts * (oneOf dottedParts)∗
  | ofKind .predicateName =>
    oneOf {'#'} * oneOf nameStarts * (oneOf dashedParts)∗ * (1 + oneOf {'?', '!'})
  | ofKind .ident => oneOf wordParts * (oneOf dottedParts)∗
  | ofKind .blank => oneOf blanks * (oneOf blanks)∗
  | ofKind .newline => oneOf {'\n'}
  | ofKind .comment => oneOf {';'} * (oneOf {'\n'}ᶜ)∗
  | ofKind .quote | ofKind .strVal | ofKind .garbage => 0

/-- Some pattern matches the text. -/
def IsToken (text : List Char) : Prop := ∃ d : TokenClass, text ∈ d.language

/-! ## The texts of the patterns -/

section Words

variable {s t : Set Char} {c : Char} {w : List Char}

theorem mem_oneOf_iff : w ∈ oneOf s ↔ ∃ c ∈ s, w = [c] := Iff.rfl

theorem mem_oneOf_singleton_iff : w ∈ oneOf {c} ↔ w = [c] := by
  rw [mem_oneOf_iff]
  simp

theorem mem_kstar_oneOf_iff : w ∈ (oneOf s)∗ ↔ ∀ c ∈ w, c ∈ s := by
  constructor
  · refine EachLetter.kstar ?_ w
    rintro _ ⟨c, hc, rfl⟩
    simpa using hc
  · intro h
    induction w with
    | nil => exact Language.nil_mem_kstar _
    | cons c w ih =>
      obtain ⟨hc, hw⟩ := List.forall_mem_cons.mp h
      exact append_mem_kstar (v := [c]) ⟨c, hc, rfl⟩ (ih hw)

theorem mem_oneOf_mul_iff {L : Language Char} :
    w ∈ oneOf s * L ↔ ∃ c ∈ s, ∃ v ∈ L, w = c :: v := by
  rw [Language.mem_mul]
  constructor
  · rintro ⟨_, ⟨c, hc, rfl⟩, v, hv, rfl⟩
    exact ⟨c, hc, v, hv, rfl⟩
  · rintro ⟨c, hc, v, hv, rfl⟩
    exact ⟨[c], ⟨c, hc, rfl⟩, v, hv, rfl⟩

/-- A character and a run of others. -/
theorem mem_run_iff :
    w ∈ oneOf s * (oneOf t)∗ ↔ ∃ c ∈ s, ∃ v, (∀ d ∈ v, d ∈ t) ∧ w = c :: v := by
  simp only [mem_oneOf_mul_iff, mem_kstar_oneOf_iff]

end Words

section Characters

variable {c : Char}

theorem mem_letters_iff : c ∈ letters ↔ c.isAlpha = true := by
  have hupper : c.isUpper = true ↔ 'A' ≤ c ∧ c ≤ 'Z' := decide_eq_true_iff
  have hlower : c.isLower = true ↔ 'a' ≤ c ∧ c ≤ 'z' := by
    rw [← decide_eq_true_iff (p := 'a' ≤ c ∧ c ≤ 'z'), Bool.decide_and]
    rfl
  have halpha : c.isAlpha = true ↔ c.isUpper = true ∨ c.isLower = true := Bool.or_eq_true_iff
  simp only [letters, Set.mem_union, Set.mem_Icc, halpha, hupper, hlower]
  exact Or.comm

theorem mem_digits_iff : c ∈ digits ↔ c.isDigit = true := by
  simp only [digits, Set.mem_Icc, Char.isDigit, Bool.and_eq_true, decide_eq_true_eq, Char.le_def]

theorem mem_nameStarts_iff : c ∈ nameStarts ↔ isNameStart c = true := by
  simp only [nameStarts, isNameStart, Set.mem_union, Set.mem_singleton_iff, mem_letters_iff,
    Bool.or_eq_true, beq_iff_eq]

theorem mem_wordParts_iff : c ∈ wordParts ↔ isIdentStart c = true := by
  simp only [wordParts, isIdentStart, Char.isAlphanum, Set.mem_union, Set.mem_singleton_iff,
    mem_letters_iff, mem_digits_iff, Bool.or_eq_true, beq_iff_eq]

theorem mem_dashedParts_iff : c ∈ dashedParts ↔ isPredicatePart c = true := by
  simp only [dashedParts, isPredicatePart, Set.mem_union, Set.mem_singleton_iff,
    mem_wordParts_iff, isIdentStart, Bool.or_eq_true, beq_iff_eq]

theorem mem_dottedParts_iff : c ∈ dottedParts ↔ isIdentPart c = true := by
  simp only [dottedParts, isIdentPart, Set.mem_union, Set.mem_insert_iff, Set.mem_singleton_iff,
    mem_wordParts_iff, isIdentStart, Bool.or_eq_true, beq_iff_eq, or_assoc]

theorem mem_blanks_iff : c ∈ blanks ↔ isBlank c = true := by
  simp only [blanks, isBlank, Set.mem_insert_iff, Set.mem_singleton_iff, Bool.or_eq_true,
    beq_iff_eq, or_assoc]

end Characters

/-! ### Pattern by pattern -/

section Patterns

variable {w : List Char}

theorem mem_captureName_iff : w ∈ (TokenClass.ofKind .captureName).language ↔
    ∃ d ds, isNameStart d = true ∧ (∀ c ∈ ds, isIdentPart c = true) ∧ w = '@' :: d :: ds := by
  simp only [TokenClass.language, mul_assoc, mem_oneOf_mul_iff, mem_kstar_oneOf_iff,
    Set.mem_singleton_iff, mem_nameStarts_iff, mem_dottedParts_iff]
  constructor
  · rintro ⟨_, rfl, _, ⟨d, hd, ds, hds, rfl⟩, rfl⟩
    exact ⟨d, ds, hd, hds, rfl⟩
  · rintro ⟨d, ds, hd, hds, rfl⟩
    exact ⟨'@', rfl, _, ⟨d, hd, ds, hds, rfl⟩, rfl⟩

theorem mem_predicateName_iff : w ∈ (TokenClass.ofKind .predicateName).language ↔
    ∃ d ds mark, isNameStart d = true ∧ (∀ c ∈ ds, isPredicatePart c = true) ∧
      (mark = [] ∨ ∃ c, isMark c = true ∧ mark = [c]) ∧ w = '#' :: d :: (ds ++ mark) := by
  simp only [TokenClass.language, mul_assoc, mem_oneOf_mul_iff]
  simp only [Language.mem_mul, Language.mem_add, Language.mem_one, mem_kstar_oneOf_iff,
    mem_oneOf_iff, Set.mem_singleton_iff, Set.mem_insert_iff, mem_nameStarts_iff,
    mem_dashedParts_iff, isMark, Bool.or_eq_true, beq_iff_eq]
  constructor
  · rintro ⟨_, rfl, _, ⟨d, hd, _, ⟨ds, hds, mark, hmark, rfl⟩, rfl⟩, rfl⟩
    exact ⟨d, ds, mark, hd, hds, hmark, rfl⟩
  · rintro ⟨d, ds, mark, hd, hds, hmark, rfl⟩
    exact ⟨'#', rfl, _, ⟨d, hd, _, ⟨ds, hds, mark, hmark, rfl⟩, rfl⟩, rfl⟩

theorem mem_ident_iff : w ∈ (TokenClass.ofKind .ident).language ↔
    ∃ c cs, isIdentStart c = true ∧ (∀ d ∈ cs, isIdentPart d = true) ∧ w = c :: cs := by
  simp only [TokenClass.language, mem_run_iff, mem_wordParts_iff, mem_dottedParts_iff]
  constructor
  · rintro ⟨c, hc, cs, hcs, rfl⟩
    exact ⟨c, cs, hc, hcs, rfl⟩
  · rintro ⟨c, cs, hc, hcs, rfl⟩
    exact ⟨c, hc, cs, hcs, rfl⟩

theorem mem_blank_iff : w ∈ (TokenClass.ofKind .blank).language ↔
    ∃ c cs, isBlank c = true ∧ (∀ d ∈ cs, isBlank d = true) ∧ w = c :: cs := by
  simp only [TokenClass.language, mem_run_iff, mem_blanks_iff]
  constructor
  · rintro ⟨c, hc, cs, hcs, rfl⟩
    exact ⟨c, cs, hc, hcs, rfl⟩
  · rintro ⟨c, cs, hc, hcs, rfl⟩
    exact ⟨c, hc, cs, hcs, rfl⟩

theorem mem_comment_iff : w ∈ (TokenClass.ofKind .comment).language ↔
    ∃ cs, (∀ d ∈ cs, (d != '\n') = true) ∧ w = ';' :: cs := by
  simp only [TokenClass.language, mem_run_iff, Set.mem_singleton_iff, Set.mem_compl_iff, bne_iff_ne]
  constructor
  · rintro ⟨_, rfl, cs, hcs, rfl⟩
    exact ⟨cs, hcs, rfl⟩
  · rintro ⟨cs, hcs, rfl⟩
    exact ⟨';', rfl, cs, hcs, rfl⟩

/-- What stands between the quotes of a literal. -/
theorem mem_literalBody_iff :
    w ∈ (oneOf {'"', '\\'}ᶜ + oneOf {'\\'} * oneOf {'\n'}ᶜ)∗ ↔
      Escaped (IsPlain '"' true) (· ≠ '\n') w := by
  constructor
  · refine kstar_induction (motive := Escaped (IsPlain '"' true) (· ≠ '\n')) .nil ?_
    rintro v w (⟨c, hc, rfl⟩ | hv) _ ih
    · simp only [Set.mem_compl_iff, Set.mem_insert_iff, Set.mem_singleton_iff, not_or] at hc
      exact .plain ⟨hc.1, hc.2, fun _ ↦ rfl⟩ ih
    · obtain ⟨_, rfl, _, ⟨c, hc, rfl⟩, rfl⟩ := mem_oneOf_mul_iff.mp hv
      exact .pair hc ih
  · intro h
    induction h with
    | nil => exact Language.nil_mem_kstar _
    | @plain c cs hc _ ih =>
      refine append_mem_kstar (v := [c]) (.inl ⟨c, ?_, rfl⟩) ih
      simp [hc.ne_quote, hc.ne_backslash]
    | @pair c cs hc _ ih =>
      refine append_mem_kstar (v := ['\\', c]) (.inr ?_) ih
      exact mem_oneOf_mul_iff.mpr ⟨_, rfl, _, ⟨c, hc, rfl⟩, rfl⟩

theorem mem_literal_iff : w ∈ TokenClass.literal.language ↔
    ∃ body, Escaped (IsPlain '"' true) (· ≠ '\n') body ∧ w = '"' :: (body ++ ['"']) := by
  simp only [TokenClass.language, mul_assoc, mem_oneOf_mul_iff]
  simp only [Language.mem_mul, mem_literalBody_iff, mem_oneOf_singleton_iff, Set.mem_singleton_iff]
  constructor
  · rintro ⟨_, rfl, _, ⟨body, hbody, _, rfl, rfl⟩, rfl⟩
    exact ⟨body, hbody, rfl⟩
  · rintro ⟨body, hbody, rfl⟩
    exact ⟨'"', rfl, _, ⟨body, hbody, _, rfl, rfl⟩, rfl⟩

end Patterns

/-! ### The first character tells the pattern -/

/-- The pattern whose texts begin with the character; a lone underscore matches another one. -/
def classOf (c : Char) : Option TokenClass :=
  match c with
  | '(' => some (.ofKind .parenOpen)
  | ')' => some (.ofKind .parenClose)
  | '[' => some (.ofKind .bracketOpen)
  | ']' => some (.ofKind .bracketClose)
  | ':' => some (.ofKind .colon)
  | '!' => some (.ofKind .bang)
  | '.' => some (.ofKind .dot)
  | '*' => some (.ofKind .star)
  | '+' => some (.ofKind .plus)
  | '?' => some (.ofKind .question)
  | '/' => some (.ofKind .slash)
  | '\n' => some (.ofKind .newline)
  | ';' => some (.ofKind .comment)
  | '"' => some .literal
  | '@' => some (.ofKind .captureName)
  | '#' => some (.ofKind .predicateName)
  | c =>
    if isBlank c then some (.ofKind .blank)
    else if isIdentStart c then some (.ofKind .ident)
    else none

theorem classOf_ident {c : Char} (hc : isIdentStart c = true) :
    classOf c = some (.ofKind .ident) := by
  unfold classOf
  split
  all_goals first
    | exact absurd hc (by decide)
    | skip
  rw [if_neg, if_pos hc]
  simp only [isBlank, Bool.or_eq_true, beq_iff_eq]
  rintro ((rfl | rfl) | rfl) <;> exact absurd hc (by decide)

theorem classOf_blank {c : Char} (hc : isBlank c = true) : classOf c = some (.ofKind .blank) := by
  simp only [isBlank, Bool.or_eq_true, beq_iff_eq] at hc
  rcases hc with (rfl | rfl) | rfl <;> rfl

/-- **The first character tells which pattern matches**, except that an underscore begins two. -/
theorem classOf_of_mem {d : TokenClass} {w : List Char} (h : w ∈ d.language) :
    ∃ c v, w = c :: v ∧ (classOf c = some d ∨ d = .ofKind .underscore ∧ w = ['_']) := by
  cases d with
  | literal =>
    obtain ⟨body, -, rfl⟩ := mem_literal_iff.mp h
    exact ⟨_, _, rfl, .inl rfl⟩
  | ofKind k =>
    cases k
    case captureName =>
      obtain ⟨d, ds, -, -, rfl⟩ := mem_captureName_iff.mp h
      exact ⟨_, _, rfl, .inl rfl⟩
    case predicateName =>
      obtain ⟨d, ds, mark, -, -, -, rfl⟩ := mem_predicateName_iff.mp h
      exact ⟨_, _, rfl, .inl rfl⟩
    case ident =>
      obtain ⟨c, cs, hc, -, rfl⟩ := mem_ident_iff.mp h
      exact ⟨_, _, rfl, .inl (classOf_ident hc)⟩
    case blank =>
      obtain ⟨c, cs, hc, -, rfl⟩ := mem_blank_iff.mp h
      exact ⟨_, _, rfl, .inl (classOf_blank hc)⟩
    case comment =>
      obtain ⟨cs, -, rfl⟩ := mem_comment_iff.mp h
      exact ⟨_, _, rfl, .inl rfl⟩
    case underscore =>
      have hw := mem_oneOf_singleton_iff.mp h
      exact ⟨_, _, hw, .inr ⟨rfl, hw⟩⟩
    case quote | strVal | garbage => exact absurd h (Language.notMem_zero _)
    all_goals exact ⟨_, _, mem_oneOf_singleton_iff.mp h, .inl rfl⟩

/-- So at most one pattern is in question at a place. -/
theorem mem_of_isPrefix {c : Char} {w cs : List Char} (hw : IsToken w) (h : w <+: c :: cs) :
    c = '_' ∧ w = ['_'] ∨ ∃ d, classOf c = some d ∧ w ∈ d.language := by
  obtain ⟨d, hd⟩ := hw
  obtain ⟨c', v, rfl, hc⟩ := classOf_of_mem hd
  obtain ⟨rfl, -⟩ := List.cons_prefix_cons.mp h
  rcases hc with hc | ⟨-, hlone⟩
  · exact .inr ⟨d, hc, hd⟩
  · exact .inl ⟨(List.cons.inj hlone).1, hlone⟩

end Concord.Query
