import Concord.Proofs.Language
import Concord.Proofs.Query.Conservation

/-!
# The language of queries

A query is a sequence of phrases.  Here the phrases are described as formal languages over
lexemes, without regard to how they are read: a union for a choice, a product for what stands one
behind the other, and a star for what is repeated.

Patterns nest, so `Phrase.pattern` is given by levels: `Phrase.pattern n` holds the patterns that
nest at most `n` deep, where the pattern itself counts as one level, and so do predicates and the
values of fields.  `Phrase.root` holds the whole texts.

The rest of the file is one half of the comparison with the productions.  `Parsed.TakesWord` says
that a result without reports has taken a word of a language, and `root_takesWord` says it of a
whole text.
-/

set_option autoImplicit false

open Computability

namespace Concord.Query

/-! ## Phrases -/

namespace Phrase

/-- One lexeme of a kind. -/
def one (k : TokenKind) : Language Lexeme := {w | ∃ l : Lexeme, l.kind = k ∧ w = [l]}

/-- A quoted string; the empty string has no value between its quotes. -/
def str : Language Lexeme := one .quote * (1 + one .strVal) * one .quote

/-- A predicate with its arguments. -/
def predicate : Language Lexeme :=
  one .parenOpen * one .predicateName *
    (one .captureName + one .ident + one .underscore + str)∗ * one .parenClose

section Nested

variable (P : Language Lexeme)

/-- `(type/subtype pattern ...)` -/
def tree : Language Lexeme :=
  one .parenOpen * (one .ident + one .underscore) * (1 + one .slash * one .ident) * P∗ *
    one .parenClose

/-- The patterns of a group: at least one, and no name in front. -/
def members : Language Lexeme :=
  {w | w ∈ P * P∗ ∧ ∀ l ∈ w.head?, l.kind ≠ .ident ∧ l.kind ≠ .underscore}

/-- `(pattern pattern ...)` -/
def group : Language Lexeme := one .parenOpen * members P * one .parenClose

/-- `[pattern ...]` -/
def alternation : Language Lexeme := one .bracketOpen * P∗ * one .bracketClose

/-- `name: pattern` -/
def field : Language Lexeme := one .ident * one .colon * P

/-- A pattern without its quantifier and captures, where `P` are the patterns within. -/
def atom : Language Lexeme :=
  tree P + group P + predicate + alternation P + str + one .underscore + one .dot + field P +
    one .bang * one .ident

end Nested

/-- `*`, `+` or `?` -/
def quantifier : Language Lexeme := one .star + one .plus + one .question

/-- The patterns that nest at most so many levels deep. -/
def pattern : Nat → Language Lexeme
  | 0 => 0
  | levels + 1 => atom (pattern levels) * (1 + quantifier) * (one .captureName)∗

/-- The lexemes of a whole text. -/
def root : Language Lexeme := (pattern 256)∗

/-! ### Membership -/

theorem mem_one {k : TokenKind} {w : List Lexeme} :
    w ∈ one k ↔ ∃ l : Lexeme, l.kind = k ∧ w = [l] := Iff.rfl

theorem singleton_mem_one {k : TokenKind} {l : Lexeme} (h : l.kind = k) : [l] ∈ one k :=
  ⟨l, h, rfl⟩

theorem mem_members {P : Language Lexeme} {w : List Lexeme} :
    w ∈ members P ↔
      w ∈ P * P∗ ∧ ∀ l ∈ w.head?, l.kind ≠ .ident ∧ l.kind ≠ .underscore := Iff.rfl

theorem singleton_mem_quantifier {l : Lexeme} :
    [l] ∈ quantifier ↔ l.kind.isQuantifier = true := by
  simp only [quantifier, Language.mem_add, mem_one, List.cons.injEq, and_true]
  cases h : l.kind <;> simp [TokenKind.isQuantifier] <;> grind

theorem mem_kstar_one {k : TokenKind} {w : List Lexeme} :
    w ∈ (one k)∗ ↔ ∀ l ∈ w, l.kind = k := by
  constructor
  · intro hw
    refine kstar_induction (motive := fun w ↦ ∀ l ∈ w, l.kind = k) (by simp) ?_ hw
    intro v w hv _ ih l hl
    obtain ⟨m, hm, rfl⟩ := mem_one.mp hv
    rcases List.mem_cons.mp hl with rfl | hl
    · exact hm
    · exact ih l hl
  · intro h
    induction w with
    | nil => exact Language.nil_mem_kstar _
    | cons l w ih =>
      exact append_mem_kstar (singleton_mem_one (h l List.mem_cons_self))
        (ih fun m hm ↦ h m (List.mem_cons_of_mem l hm))

end Phrase

/-! ## Results that take words -/

/-- If nothing was reported, what the result has taken of `ls` is a word of the language. -/
def Parsed.TakesWord (p : Parsed) (ls : List Lexeme) (L : Language Lexeme) : Prop :=
  p.reports = [] → ∃ w ∈ L, w ++ p.rest = ls

namespace Parsed

theorem TakesWord.andThen {p : Parsed} {ls : List Lexeme} {L M : Language Lexeme}
    {next : Production} (hp : p.TakesWord ls L) (hnext : (next p.rest).TakesWord p.rest M) :
    (p.andThen next).TakesWord ls (L * M) := by
  intro hclean
  obtain ⟨hreports, hreports'⟩ := List.append_eq_nil_iff.mp hclean
  obtain ⟨v, hv, hls⟩ := hp hreports
  obtain ⟨w, hw, hrest⟩ := hnext hreports'
  refine ⟨v ++ w, Language.append_mem_mul hv hw, ?_⟩
  change v ++ w ++ (next p.rest).rest = ls
  rw [List.append_assoc, hrest, hls]

theorem TakesWord.mono {p : Parsed} {ls : List Lexeme} {L M : Language Lexeme}
    (hp : p.TakesWord ls L) (hLM : ∀ w ∈ L, w ∈ M) : p.TakesWord ls M := by
  intro hclean
  obtain ⟨w, hw, hls⟩ := hp hclean
  exact ⟨w, hLM w hw, hls⟩

theorem TakesWord.inl {p : Parsed} {ls : List Lexeme} {L M : Language Lexeme}
    (hp : p.TakesWord ls L) : p.TakesWord ls (L + M) :=
  hp.mono fun w hw ↦ (Language.mem_add L M w).mpr (.inl hw)

theorem TakesWord.inr {p : Parsed} {ls : List Lexeme} {L M : Language Lexeme}
    (hp : p.TakesWord ls M) : p.TakesWord ls (L + M) :=
  hp.mono fun w hw ↦ (Language.mem_add L M w).mpr (.inr hw)

/-- The word that was taken begins as what was read. -/
theorem TakesWord.head {p : Parsed} {l : Lexeme} {ls : List Lexeme} {L M : Language Lexeme}
    (hp : p.TakesWord (l :: ls) L) (hM : ∀ w ∈ L, (∀ m ∈ w.head?, m = l) → w ∈ M) :
    p.TakesWord (l :: ls) M := by
  intro hclean
  obtain ⟨w, hw, hls⟩ := hp hclean
  refine ⟨w, hM w hw fun m hm ↦ ?_, hls⟩
  cases w with
  | nil => contradiction
  | cons m' w =>
    rw [← Option.some_inj.mp hm]
    exact (List.cons.inj hls).1

/-- Taking nothing is taking the empty word. -/
theorem takesWord_nothing (ts : List (Tree Lexeme)) (rs : List Report) (ls : List Lexeme) :
    Parsed.TakesWord ⟨ts, rs, ls⟩ ls 1 := fun _ ↦ ⟨[], Language.nil_mem_one, rfl⟩

end Parsed

namespace Production

open Phrase (one)

/-! ## Building blocks -/

theorem token_takesWord {k : TokenKind} {l : Lexeme} (h : l.kind = k) (ls : List Lexeme) :
    (token (l :: ls)).TakesWord (l :: ls) (one k) :=
  fun _ ↦ ⟨[l], Phrase.singleton_mem_one h, rfl⟩

/-- What is reported has taken a word of any language one likes. -/
theorem report_takesWord (problem : Problem) (ls : List Lexeme) (L : Language Lexeme) :
    (report problem ls).TakesWord ls L := fun hclean ↦ absurd hclean (List.cons_ne_nil _ _)

theorem stray_takesWord (problem : Problem) (ls : List Lexeme) (L : Language Lexeme) :
    (stray problem ls).TakesWord ls L := fun hclean ↦ absurd hclean (List.cons_ne_nil _ _)

/-- A lexeme that is looked at before it is taken. -/
theorem if_kindAhead_takesWord {k : TokenKind} {next other : Production} {ls : List Lexeme}
    {L : Language Lexeme}
    (hnext : ∀ l rest, l.kind = k → (next (l :: rest)).TakesWord (l :: rest) L)
    (hother : (other ls).TakesWord ls L) :
    (if kindAhead ls = some k then next ls else other ls).TakesWord ls L := by
  split
  · rename_i h
    cases ls with
    | nil => contradiction
    | cons l rest => exact hnext l rest (Option.some_inj.mp h)
  · exact hother

theorem optional_takesWord (k : TokenKind) (ls : List Lexeme) :
    (optional k ls).TakesWord ls (1 + one k) :=
  if_kindAhead_takesWord (fun _ rest h ↦ (token_takesWord h rest).inr)
    (Parsed.takesWord_nothing [] [] ls).inl

theorem expect_takesWord (k : TokenKind) (problem : Problem) (ls : List Lexeme) :
    (expect k problem ls).TakesWord ls (one k) :=
  if_kindAhead_takesWord (fun _ rest h ↦ token_takesWord h rest) (report_takesWord problem ls _)

theorem close_takesWord (k : TokenKind) (problem : Nat → Problem) (opener ls : List Lexeme) :
    (close k problem opener ls).TakesWord ls (one k) :=
  if_kindAhead_takesWord (fun _ rest h ↦ token_takesWord h rest) (report_takesWord _ ls _)

theorem seq_cons_takesWord {p : Production} {ps : List Production} {ls : List Lexeme}
    {L M : Language Lexeme} (hp : (p ls).TakesWord ls L)
    (hps : (seq ps (p ls).rest).TakesWord (p ls).rest M) :
    (seq (p :: ps) ls).TakesWord ls (L * M) :=
  hp.andThen hps

theorem seq_last_takesWord {p : Production} {ls : List Lexeme} {L : Language Lexeme}
    (hp : (p ls).TakesWord ls L) : (seq [p] ls).TakesWord ls L := by
  have h : (seq [p] ls).TakesWord ls (L * 1) :=
    seq_cons_takesWord hp (Parsed.takesWord_nothing [] [] _)
  rwa [mul_one] at h

theorem many_takesWord {stop : TokenKind → Bool} {item : TokenKind → Production}
    {L : Language Lexeme} (h : ∀ kind, Advances (item kind))
    (hitem : ∀ l ls, stop l.kind = false → (item l.kind (l :: ls)).TakesWord (l :: ls) L)
    (ls : List Lexeme) : (many stop item ls).TakesWord ls L∗ := by
  refine many_induction h (motive := fun ls p ↦ p.TakesWord ls L∗) ?_ ?_ ?_ ls
  · exact fun _ ↦ ⟨[], Language.nil_mem_kstar L, rfl⟩
  · exact fun l ls _ _ ↦ ⟨[], Language.nil_mem_kstar L, rfl⟩
  · intro l ls hstop ih
    refine ((hitem l ls hstop).andThen ih).mono fun w hw ↦ ?_
    obtain ⟨u, hu, v, hv, rfl⟩ := Language.mem_mul.mp hw
    exact append_mem_kstar hu hv

/-! ## Atoms -/

theorem str_takesWord {l : Lexeme} (hl : l.kind = .quote) (ls : List Lexeme) :
    (str (l :: ls)).TakesWord (l :: ls) Phrase.str := by
  rw [Phrase.str, mul_assoc]
  exact seq_cons_takesWord (token_takesWord hl ls)
    (seq_cons_takesWord (optional_takesWord _ _) (seq_last_takesWord (expect_takesWord _ _ _)))

theorem negatedField_takesWord {l : Lexeme} (hl : l.kind = .bang) (ls : List Lexeme) :
    (negatedField (l :: ls)).TakesWord (l :: ls) (one .bang * one .ident) :=
  seq_cons_takesWord (token_takesWord hl ls) (seq_last_takesWord (expect_takesWord _ _ _))

theorem garbage_takesWord (l : Lexeme) (ls : List Lexeme) (L : Language Lexeme) :
    (garbage (l :: ls)).TakesWord (l :: ls) L := by
  rw [garbage]
  split <;> exact stray_takesWord _ _ L

theorem strayToken_takesWord (k : TokenKind) (l : Lexeme) (ls : List Lexeme)
    (L : Language Lexeme) : (strayToken k (l :: ls)).TakesWord (l :: ls) L := by
  rw [strayToken.eq_def]
  split
  all_goals first
    | exact stray_takesWord _ _ L
    | exact garbage_takesWord l ls L

theorem argument_takesWord (l : Lexeme) (ls : List Lexeme) :
    (argument l.kind (l :: ls)).TakesWord (l :: ls)
      (one .captureName + one .ident + one .underscore + Phrase.str) := by
  cases h : l.kind with
  | captureName => exact (token_takesWord h ls).inl.inl.inl
  | ident => exact (token_takesWord h ls).inr.inl.inl
  | underscore => exact (token_takesWord h ls).inr.inl
  | quote => exact (str_takesWord h ls).inr
  | garbage => exact garbage_takesWord l ls _
  | _ => exact stray_takesWord _ _ _

theorem arguments_takesWord (ls : List Lexeme) :
    (arguments ls).TakesWord ls
      (one .captureName + one .ident + one .underscore + Phrase.str)∗ :=
  many_takesWord argument_advances (fun l ls _ ↦ argument_takesWord l ls) ls

theorem subtype_takesWord (ls : List Lexeme) :
    (subtype ls).TakesWord ls (1 + one .slash * one .ident) :=
  if_kindAhead_takesWord
    (fun _ _ h ↦ Parsed.TakesWord.inr (seq_cons_takesWord (token_takesWord h _)
      (seq_last_takesWord (expect_takesWord _ _ _))))
    (Parsed.takesWord_nothing [] [] ls).inl

section Nested

variable {pattern : Production} {P : Language Lexeme}

theorem patterns_takesWord (hp : Advances pattern) (hP : ∀ ls, (pattern ls).TakesWord ls P)
    (stop : TokenKind → Bool) (ls : List Lexeme) :
    (patterns pattern stop ls).TakesWord ls P∗ := by
  refine many_takesWord (item_advances hp) (fun l ls _ ↦ ?_) ls
  split
  · exact hP (l :: ls)
  · exact strayToken_takesWord _ l ls P

/-- A list of patterns that begins with a pattern holds at least one. -/
theorem patterns_cons_takesWord (hp : Advances pattern)
    (hP : ∀ ls, (pattern ls).TakesWord ls P) {stop : TokenKind → Bool} {l : Lexeme}
    (hstop : stop l.kind = false) (hl : l.kind.startsPattern = true) (ls : List Lexeme) :
    (patterns pattern stop (l :: ls)).TakesWord (l :: ls) (P * P∗) := by
  rw [patterns_cons hp, if_neg (by simp [hstop]), if_pos hl]
  exact (hP (l :: ls)).andThen (patterns_takesWord hp hP stop _)

/-- What stands between parentheses is the inside of a tree, of a group or of a predicate. -/
theorem parenBody_takesWord (hp : Advances pattern) (hP : ∀ ls, (pattern ls).TakesWord ls P)
    (l : Lexeme) (ls : List Lexeme) :
    ((parenBody pattern (l :: ls)).2 (l :: ls)).TakesWord (l :: ls)
      ((one .ident + one .underscore) * (1 + one .slash * one .ident) * P∗ +
        Phrase.members P +
        one .predicateName * (one .captureName + one .ident + one .underscore + Phrase.str)∗) := by
  have htree : (token (l :: ls)).TakesWord (l :: ls) (one .ident + one .underscore) →
      (seq [token, subtype, patterns pattern (· = .parenClose)] (l :: ls)).TakesWord (l :: ls)
        ((one .ident + one .underscore) * (1 + one .slash * one .ident) * P∗) := by
    intro h
    rw [mul_assoc]
    exact seq_cons_takesWord h (seq_cons_takesWord (subtype_takesWord _)
      (seq_last_takesWord (patterns_takesWord hp hP _ _)))
  rw [parenBody, kindAhead_cons]
  split
  · contradiction
  · exact report_takesWord _ _ _
  · rename_i h
    exact (htree (token_takesWord (Option.some_inj.mp h) ls).inl).inl.inl
  · rename_i h
    exact (htree (token_takesWord (Option.some_inj.mp h) ls).inr).inl.inl
  · rename_i h
    exact Parsed.TakesWord.inr (seq_cons_takesWord (token_takesWord (Option.some_inj.mp h) ls)
      (seq_last_takesWord (arguments_takesWord _)))
  · rename_i kind hclose hident hunderscore _ h
    have hkind := Option.some_inj.mp h
    subst hkind
    split
    · rename_i hl
      refine Parsed.TakesWord.inl (Parsed.TakesWord.inr ?_)
      refine (patterns_cons_takesWord hp hP (by simpa using hclose) hl ls).head fun w hw hhead ↦ ?_
      refine Phrase.mem_members.mpr ⟨hw, fun m hm ↦ ?_⟩
      rw [hhead m hm]
      exact ⟨by simpa using hident, by simpa using hunderscore⟩
    · exact fun hclean ↦ absurd hclean (List.cons_ne_nil _ _)

theorem paren_takesWord (hp : Advances pattern) (hP : ∀ ls, (pattern ls).TakesWord ls P)
    {o : Lexeme} (ho : o.kind = .parenOpen) (ls : List Lexeme) :
    (paren pattern (o :: ls)).TakesWord (o :: ls)
      (Phrase.tree P + Phrase.group P + Phrase.predicate) := by
  cases ls with
  | nil => exact fun hclean ↦ absurd hclean (List.cons_ne_nil _ _)
  | cons l ls =>
    have h : (paren pattern (o :: l :: ls)).TakesWord (o :: l :: ls) _ :=
      seq_cons_takesWord (token_takesWord ho _)
        (seq_cons_takesWord (parenBody_takesWord hp hP l ls)
          (seq_last_takesWord (close_takesWord _ _ _ _)))
    refine h.mono fun w hw ↦ ?_
    simp only [Phrase.tree, Phrase.group, Phrase.predicate]
    simpa only [add_mul, mul_add, mul_assoc] using hw

theorem alternation_takesWord (hp : Advances pattern) (hP : ∀ ls, (pattern ls).TakesWord ls P)
    {o : Lexeme} (ho : o.kind = .bracketOpen) (ls : List Lexeme) :
    (alternation pattern (o :: ls)).TakesWord (o :: ls) (Phrase.alternation P) := by
  rw [Phrase.alternation, mul_assoc]
  exact seq_cons_takesWord (token_takesWord ho _)
    (seq_cons_takesWord (patterns_takesWord hp hP _ _)
      (seq_last_takesWord (close_takesWord _ _ _ _)))

theorem field_takesWord (hP : ∀ ls, (pattern ls).TakesWord ls P) {n c : Lexeme}
    (hn : n.kind = .ident) (hc : c.kind = .colon) (ls : List Lexeme) :
    (field pattern (n :: c :: ls)).TakesWord (n :: c :: ls) (Phrase.field P) := by
  rw [Phrase.field, mul_assoc]
  refine seq_cons_takesWord (token_takesWord hn _)
    (seq_cons_takesWord (token_takesWord hc ls) (seq_last_takesWord ?_))
  split
  · exact hP ls
  · exact report_takesWord _ _ _

theorem atom_takesWord (hp : Advances pattern) (hP : ∀ ls, (pattern ls).TakesWord ls P)
    (ls : List Lexeme) : (atom pattern ls).TakesWord ls (Phrase.atom P) := by
  cases ls with
  | nil => exact stray_takesWord _ _ _
  | cons l ls =>
    rw [Phrase.atom, atom, kindAhead_cons]
    cases h : l.kind with
    | parenOpen => exact (paren_takesWord hp hP h ls).inl.inl.inl.inl.inl.inl
    | bracketOpen => exact (alternation_takesWord hp hP h ls).inr.inl.inl.inl.inl.inl
    | quote => exact (str_takesWord h ls).inr.inl.inl.inl.inl
    | underscore => exact (token_takesWord h ls).inr.inl.inl.inl
    | dot => exact (token_takesWord h ls).inr.inl.inl
    | bang => exact (negatedField_takesWord h ls).inr
    | ident =>
      dsimp only
      split
      · rename_i hcolon
        cases ls with
        | nil => contradiction
        | cons c ls => exact (field_takesWord hP h (Option.some_inj.mp hcolon) ls).inr.inl
      · exact stray_takesWord _ _ _
    | _ => exact stray_takesWord _ _ _

end Nested

/-! ## Patterns -/

theorem quantified_takesWord {p : Parsed} {ls : List Lexeme} {L : Language Lexeme}
    (h : p.TakesWord ls L) :
    (quantified p).TakesWord ls (L * (1 + Phrase.quantifier)) := by
  rw [quantified]
  split
  · rename_i hquant
    cases hrest : p.rest with
    | nil =>
      rw [hrest] at hquant
      contradiction
    | cons l rest =>
      rw [hrest, kindAhead_cons, Option.any_some] at hquant
      have htoken : (token p.rest).TakesWord p.rest (1 + Phrase.quantifier) := by
        rw [hrest]
        exact Parsed.TakesWord.inr
          fun _ ↦ ⟨[l], Phrase.singleton_mem_quantifier.mpr hquant, rfl⟩
      exact h.andThen htoken
  · refine h.mono fun w hw ↦ ?_
    rw [mul_add, mul_one]
    exact (Language.mem_add _ _ w).mpr (.inl hw)

theorem captured_takesWord {p : Parsed} {ls : List Lexeme} {L : Language Lexeme}
    (h : p.TakesWord ls L) : (captured p).TakesWord ls (L * (one .captureName)∗) := by
  intro hclean
  rw [captured] at hclean ⊢
  split
  · rename_i hcap
    rw [if_pos hcap] at hclean
    obtain ⟨w, hw, hls⟩ := h hclean
    refine ⟨w ++ p.rest.takeWhile (·.kind = .captureName),
      Language.append_mem_mul hw (Phrase.mem_kstar_one.mpr fun l hl ↦ ?_), ?_⟩
    · have hall := List.all_takeWhile (p := fun l : Lexeme ↦ decide (l.kind = .captureName))
        (l := p.rest)
      simpa using List.all_eq_true.mp hall l hl
    · dsimp only [Parsed.wrap]
      rw [List.append_assoc, List.takeWhile_append_dropWhile, hls]
  · rename_i hcap
    rw [if_neg hcap] at hclean
    obtain ⟨w, hw, hls⟩ := h hclean
    refine ⟨w ++ [], Language.append_mem_mul hw (Language.nil_mem_kstar _), ?_⟩
    rw [List.append_nil, hls]

/-- What a pattern has taken without a report is a pattern of the language. -/
theorem pattern_takesWord (levels : Nat) (ls : List Lexeme) :
    (pattern levels ls).TakesWord ls (Phrase.pattern levels) := by
  induction levels generalizing ls with
  | zero => exact fun hclean ↦ absurd hclean (List.cons_ne_nil _ _)
  | succ levels ih =>
    exact captured_takesWord (quantified_takesWord (atom_takesWord (pattern_advances levels) ih ls))

/-- **A text without reports is a word of the language.** -/
theorem root_takesWord (ls : List Lexeme) : (root ls).TakesWord ls Phrase.root :=
  patterns_takesWord (pattern_advances maxDepth) (pattern_takesWord maxDepth) _ ls

end Production

end Concord.Query
