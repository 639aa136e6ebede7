import Concord.Proofs.Query.Phrase
import Concord.Proofs.Query.Reading
import Concord.Proofs.Query.Weaving
import Concord.Query.Document

/-!
# A query reads without errors if and only if it is a word of the language

`Phrase.root_takesWord` says that a text without reports is a word of the language of queries.
Here is the other half: what is a word is read without a report.

The difficulty is that the language is ambiguous and the productions are not.  In
`name: (a) * @x` the quantifier and the capture may belong to the value or to the field, and the
production of patterns gives the value all that it can take.  So the production of a pattern may
take more than the word that it is given, if quantifiers and captures follow, and less is left for
the field around it.  `LeftOf s s'` says what may then be left of `s`, and
`leftOf_afterSuffix` says that the field around the pattern can always go on from there.

* `Completes p w` says that `p` reads the word `w` in front of whatever follows, up to that.
* `pattern_completes` says it of all patterns of the language.
* `Document.anyError_parse_iff` takes an error back to a report.
-/

set_option autoImplicit false

open Computability

namespace Concord.Query

namespace Production

open Phrase (one)

/-! ## What greedy reading leaves -/

/-- `s'` is left of `s` by patterns that took their quantifiers and captures from its front: all
of it, or an end of it that does not begin with a capture. -/
def LeftOf (s s' : List Lexeme) : Prop :=
  s' <:+ s ∧ (s' = s ∨ ∀ l ∈ s'.head?, l.kind ≠ .captureName)

theorem LeftOf.refl (s : List Lexeme) : LeftOf s s := ⟨List.suffix_refl s, .inl rfl⟩

theorem LeftOf.eq_nil {s' : List Lexeme} (h : LeftOf [] s') : s' = [] :=
  List.suffix_nil.mp h.1

/-- The quantifier at the front of a list, if there is one, and what is behind it. -/
def takeMark : List Lexeme → Option Lexeme × List Lexeme
  | [] => (none, [])
  | l :: ls => if l.kind.isQuantifier then (some l, ls) else (none, l :: ls)

theorem takeMark_append (s : List Lexeme) : (takeMark s).1.toList ++ (takeMark s).2 = s := by
  cases s with
  | nil => rfl
  | cons l s => rw [takeMark]; split <;> rfl

/-- What is behind a quantifier and captures at the front of a list. -/
def afterSuffix (s : List Lexeme) : List Lexeme :=
  (takeMark s).2.dropWhile fun l ↦ decide (l.kind = .captureName)

theorem afterSuffix_suffix (s : List Lexeme) : afterSuffix s <:+ s := by
  refine (List.dropWhile_suffix _).trans ?_
  exact ⟨(takeMark s).1.toList, takeMark_append s⟩

theorem head_afterSuffix (s : List Lexeme) :
    ∀ l ∈ (afterSuffix s).head?, l.kind ≠ .captureName := by
  intro l hl hkind
  have h := List.head?_dropWhile_not (fun l : Lexeme ↦ decide (l.kind = .captureName))
    (takeMark s).2
  rw [← afterSuffix, Option.mem_def.mp hl] at h
  simp [hkind] at h

/-- Captures in front are taken with the others. -/
theorem afterSuffix_append {mark : Option Lexeme} {names s : List Lexeme}
    (hmark : ∀ l ∈ mark, l.kind.isQuantifier = true)
    (hnames : ∀ l ∈ names, l.kind = .captureName) :
    afterSuffix (mark.toList ++ (names ++ s)) <:+ s := by
  have hdrop : ∀ ls : List Lexeme,
      (names ++ ls).dropWhile (fun l ↦ decide (l.kind = .captureName)) =
        ls.dropWhile fun l ↦ decide (l.kind = .captureName) :=
    fun ls ↦ List.dropWhile_append_of_pos (by simpa using hnames)
  cases mark with
  | some l =>
    have htake : takeMark ((some l).toList ++ (names ++ s)) = (some l, names ++ s) := by
      simp [takeMark, hmark l rfl]
    rw [afterSuffix, htake, hdrop]
    exact List.dropWhile_suffix _
  | none =>
    cases names with
    | nil => exact afterSuffix_suffix s
    | cons n names =>
      have htake : takeMark ([] ++ (n :: names ++ s)) = (none, n :: names ++ s) := by
        simp [takeMark, hnames n List.mem_cons_self, TokenKind.isQuantifier]
      rw [Option.toList_none, afterSuffix, htake, hdrop]
      exact List.dropWhile_suffix _

/-- **A pattern can go on from what greedy reading left.**  Where its own quantifier and captures
were taken already, it takes what it finds, and leaves what may be left. -/
theorem leftOf_afterSuffix {mark : Option Lexeme} {names s s' : List Lexeme}
    (hmark : ∀ l ∈ mark, l.kind.isQuantifier = true)
    (hnames : ∀ l ∈ names, l.kind = .captureName)
    (h : LeftOf (mark.toList ++ (names ++ s)) s') : LeftOf s (afterSuffix s') := by
  refine ⟨?_, .inr (head_afterSuffix s')⟩
  obtain ⟨hsuffix, rfl | hhead⟩ := h
  · exact afterSuffix_append hmark hnames
  · have hs : s <:+ mark.toList ++ (names ++ s) :=
      (List.suffix_append names s).trans (List.suffix_append _ _)
    rcases List.suffix_or_suffix_of_suffix hsuffix hs with hle | ⟨x, rfl⟩
    · exact (afterSuffix_suffix s').trans hle
    · -- `s'` is longer than `s`, so it begins among the pattern's own quantifier and captures
      have hx : x = [] ∨ x = mark.toList ++ names := by
        rw [← List.append_assoc, List.suffix_append_self_iff] at hsuffix
        cases x with
        | nil => exact .inl rfl
        | cons m x =>
          have hm : m.kind ≠ .captureName := hhead m rfl
          have hnot : ¬ m :: x <:+ names := fun hin ↦
            hm (hnames m (hin.subset List.mem_cons_self))
          cases mark with
          | none => exact absurd hsuffix hnot
          | some l =>
            rcases List.suffix_cons_iff.mp hsuffix with heq | hin
            · exact .inr heq
            · exact absurd hin hnot
      obtain rfl | rfl := hx
      · exact afterSuffix_suffix s
      · rw [List.append_assoc]
        exact afterSuffix_append hmark hnames

/-- The mark that is taken is a quantifier, and where none is taken, none is there. -/
theorem isQuantifier_takeMark (s : List Lexeme) :
    (∀ l ∈ (takeMark s).1, l.kind.isQuantifier = true) ∧
      ((takeMark s).1 = none → ∀ l ∈ (takeMark s).2.head?, l.kind.isQuantifier = false) := by
  cases s with
  | nil => simp [takeMark]
  | cons l s => rw [takeMark]; split <;> simp_all

/-- A quantifier and captures are taken from the front, and nothing else. -/
theorem captured_quantified_append (ts : List (Tree Lexeme)) (s : List Lexeme) :
    ∃ us, ∀ tail, NoSuffix tail →
      captured (quantified ⟨ts, [], s ++ tail⟩) = ⟨us, [], afterSuffix s ++ tail⟩ := by
  let names := (takeMark s).2.takeWhile fun l ↦ decide (l.kind = .captureName)
  have hsplit : names ++ afterSuffix s = (takeMark s).2 := List.takeWhile_append_dropWhile
  have hs : (takeMark s).1.toList ++ (names ++ afterSuffix s) = s := by
    rw [hsplit, takeMark_append]
  have hnames : ∀ l ∈ names, l.kind = .captureName := by
    intro l hl
    have hall := List.all_takeWhile (p := fun l : Lexeme ↦ decide (l.kind = .captureName))
      (l := (takeMark s).2)
    simpa using List.all_eq_true.mp hall l hl
  refine ⟨inCaptures names (inQuantifier (takeMark s).1 ts), fun tail htail ↦ ?_⟩
  conv_lhs => rw [← hs, List.append_assoc, List.append_assoc]
  refine captured_quantified_eq (isQuantifier_takeMark s).1 hnames ?_ ?_
  · intro hnone hnil l hl
    rw [List.head?_append, Option.mem_def, Option.or_eq_some_iff] at hl
    obtain hl | ⟨-, hl⟩ := hl
    · rw [hnil, List.nil_append] at hsplit
      rw [hsplit] at hl
      exact (isQuantifier_takeMark s).2 hnone l hl
    · exact htail.head.1 l hl
  · intro l hl
    rw [List.head?_append, Option.mem_def, Option.or_eq_some_iff] at hl
    obtain hl | ⟨-, hl⟩ := hl
    · exact head_afterSuffix s l hl
    · exact htail.head.2 l hl

/-! ## Words are read without a report -/

/-- In front of whatever follows, the production takes the word and at most quantifiers and
captures behind it.  What it builds does not depend on what follows those. -/
def Completes (p : Production) (w : List Lexeme) : Prop :=
  ∀ s, ∃ ts s', LeftOf s s' ∧
    ∀ tail, NoSuffix tail → p (w ++ (s ++ tail)) = ⟨ts, [], s' ++ tail⟩

/-- With nothing that it could take besides, the production takes exactly the word. -/
theorem Completes.exists_reads {p : Production} {w : List Lexeme} (h : Completes p w) :
    ∃ ts, Reads p w ts := by
  obtain ⟨ts, s', hleft, hread⟩ := h []
  rw [hleft.eq_nil] at hread
  exact ⟨ts, hread⟩

/-- A word with which a pattern can begin, and which is read. -/
structure CompletesPattern (p : Production) (w : List Lexeme) : Prop where
  ne_nil : w ≠ []
  ahead : PatternAhead w
  completes : Completes p w

/-- A word that is read exactly, whatever follows; `f` is the word in front of that. -/
theorem completes_of_eq {p : Production} {w : List Lexeme} {ts : List (Tree Lexeme)}
    {f : List Lexeme → List Lexeme} (h : ∀ tail, p (f tail) = ⟨ts, [], tail⟩)
    (hf : ∀ tail, w ++ tail = f tail) : Completes p w :=
  fun s ↦ ⟨ts, s, LeftOf.refl s, fun tail _ ↦ by rw [hf, h]⟩

theorem exists_of_mem_str {w : List Lexeme} (hw : w ∈ Phrase.str) :
    ∃ o value c, o.kind = .quote ∧ ValueForm value ∧ c.kind = .quote ∧
      w = o :: (value ++ [c]) := by
  simp only [Phrase.str, Phrase.mem_one, Language.mem_mul, Language.mem_add,
    Language.mem_one] at hw
  obtain ⟨_, ⟨_, ⟨o, ho, rfl⟩, value, hvalue, rfl⟩, _, ⟨c, hc, rfl⟩, rfl⟩ := hw
  refine ⟨o, value, c, ho, ?_, hc, rfl⟩
  obtain rfl | ⟨l, hl, rfl⟩ := hvalue
  · exact .absent
  · exact .present hl

/-- Arguments of a predicate are read one by one. -/
theorem exists_readsArguments {w : List Lexeme}
    (hw : w ∈ (one .captureName + one .ident + one .underscore + Phrase.str)∗) :
    ∃ ts, ReadsArguments w ts := by
  refine kstar_induction (motive := fun w ↦ ∃ ts, ReadsArguments w ts)
    ⟨[], readsArguments_nil⟩ ?_ hw
  rintro v w hv _ ⟨ts, hts⟩
  have hfirst : ∃ us, ReadsArguments v us := by
    simp only [Language.mem_add, Phrase.mem_one] at hv
    obtain ((⟨l, hl, rfl⟩ | ⟨l, hl, rfl⟩) | ⟨l, hl, rfl⟩) | hstr := hv
    · exact ⟨_, readsArguments_token (.inl hl)⟩
    · exact ⟨_, readsArguments_token (.inr (.inl hl))⟩
    · exact ⟨_, readsArguments_token (.inr (.inr hl))⟩
    · obtain ⟨o, value, c, ho, hvalue, hc, rfl⟩ := exists_of_mem_str hstr
      exact ⟨_, readsArguments_str ho hvalue hc⟩
  obtain ⟨us, hus⟩ := hfirst
  exact ⟨us ++ ts, hus.append hts⟩

section Nested

variable {P : Production} {L : Language Lexeme}

/-- Patterns of the language are read one behind the other. -/
theorem exists_readsEach (hL : ∀ w ∈ L, CompletesPattern P w) {w : List Lexeme}
    (hw : w ∈ L∗) : ∃ ts, ReadsEach P w ts := by
  refine kstar_induction (motive := fun w ↦ ∃ ts, ReadsEach P w ts) ⟨[], .nil⟩ ?_ hw
  rintro v w hv _ ⟨ts, hts⟩
  have h := hL v hv
  obtain ⟨us, hus⟩ := h.completes.exists_reads
  exact ⟨us ++ ts, .cons h.ne_nil h.ahead hus hts⟩

/-! ### Atoms -/

theorem completes_atom_tree (hP : Advances P)
    (hL : ∀ w ∈ L, CompletesPattern P w) {w : List Lexeme}
    (hw : w ∈ Phrase.tree L) : Completes (atom P) w := by
  simp only [Phrase.tree, Language.mem_mul, Language.mem_add, Language.mem_one,
    Phrase.mem_one] at hw
  obtain ⟨_, ⟨_, ⟨_, ⟨_, ⟨o, ho, rfl⟩, _, hn, rfl⟩, sub, hsub, rfl⟩, body, hbody, rfl⟩,
    _, ⟨c, hc, rfl⟩, rfl⟩ := hw
  obtain ⟨ts, hts⟩ := exists_readsEach hL hbody
  have hread := fun tail ↦ hts.patterns_closed hP (by decide) hc tail
  have hsub' : SubtypeForm sub := by
    obtain rfl | ⟨_, ⟨l, hl, rfl⟩, _, ⟨m, hm, rfl⟩, rfl⟩ := hsub
    · exact .absent
    · exact .present hl hm
  obtain ⟨n, hn, rfl⟩ | ⟨n, hn, rfl⟩ := hn
  · exact completes_of_eq
      (fun tail ↦ atom_tree ho (.inl hn) hsub' hc hts.patternAhead (hread tail)) (by simp)
  · exact completes_of_eq
      (fun tail ↦ atom_tree ho (.inr hn) hsub' hc hts.patternAhead (hread tail)) (by simp)

theorem completes_atom_group (hP : Advances P)
    (hL : ∀ w ∈ L, CompletesPattern P w) {w : List Lexeme}
    (hw : w ∈ Phrase.group L) : Completes (atom P) w := by
  simp only [Phrase.group, Language.mem_mul, Phrase.mem_members, Phrase.mem_one] at hw
  obtain ⟨_, ⟨_, ⟨o, ho, rfl⟩, body, ⟨⟨v, hv, u, hu, rfl⟩, hname⟩, rfl⟩, _, ⟨c, hc, rfl⟩, rfl⟩ := hw
  obtain ⟨ts, hts⟩ := exists_readsEach hL (append_mem_kstar hv hu)
  obtain ⟨l, v, rfl⟩ := List.exists_cons_of_ne_nil (hL v hv).ne_nil
  have hread : ∀ tail, atom P (o :: (l :: (v ++ u) ++ c :: tail)) = _ :=
    fun tail ↦ atom_group ho hc (hts.patternAhead l rfl) (hname l rfl)
      (hts.patterns_closed hP (by decide) hc tail)
  exact completes_of_eq hread (by simp)

theorem completes_atom_predicate {w : List Lexeme} (hw : w ∈ Phrase.predicate) :
    Completes (atom P) w := by
  simp only [Phrase.predicate, Language.mem_mul, Phrase.mem_one] at hw
  obtain ⟨_, ⟨_, ⟨_, ⟨o, ho, rfl⟩, _, ⟨n, hn, rfl⟩, rfl⟩, args, hargs, rfl⟩,
    _, ⟨c, hc, rfl⟩, rfl⟩ := hw
  obtain ⟨ts, hts⟩ := exists_readsArguments hargs
  exact completes_of_eq (fun tail ↦ atom_predicate ho hn hc (hts.closed hc tail)) (by simp)

theorem completes_atom_alternation (hP : Advances P)
    (hL : ∀ w ∈ L, CompletesPattern P w) {w : List Lexeme}
    (hw : w ∈ Phrase.alternation L) : Completes (atom P) w := by
  simp only [Phrase.alternation, Language.mem_mul, Phrase.mem_one] at hw
  obtain ⟨_, ⟨_, ⟨o, ho, rfl⟩, body, hbody, rfl⟩, _, ⟨c, hc, rfl⟩, rfl⟩ := hw
  obtain ⟨ts, hts⟩ := exists_readsEach hL hbody
  exact completes_of_eq
    (fun tail ↦ atom_alternation ho hc (hts.patterns_closed hP (by decide) hc tail)) (by simp)

/-- A field leaves what its value leaves. -/
theorem completes_atom_field (hL : ∀ w ∈ L, CompletesPattern P w)
    {w : List Lexeme} (hw : w ∈ Phrase.field L) : Completes (atom P) w := by
  simp only [Phrase.field, Language.mem_mul, Phrase.mem_one] at hw
  obtain ⟨_, ⟨_, ⟨n, hn, rfl⟩, _, ⟨c, hc, rfl⟩, rfl⟩, v, hv, rfl⟩ := hw
  have h := hL v hv
  obtain ⟨l, v, rfl⟩ := List.exists_cons_of_ne_nil h.ne_nil
  intro s
  obtain ⟨ts, s', hleft, hread⟩ := h.completes s
  exact ⟨_, s', hleft, fun tail htail ↦
    atom_field hn hc (List.cons_ne_nil _ _) h.ahead (hread tail htail)⟩

/-- **Atoms of the language are read**, given that the patterns within are. -/
theorem completes_atom (hP : Advances P)
    (hL : ∀ w ∈ L, CompletesPattern P w) {w : List Lexeme}
    (hw : w ∈ Phrase.atom L) : Completes (atom P) w := by
  simp only [Phrase.atom, Language.mem_add] at hw
  obtain (((((((htree | hgroup) | hpred) | halt) | hstr) | hwild) | hanchor) | hfield) | hneg := hw
  · exact completes_atom_tree hP hL htree
  · exact completes_atom_group hP hL hgroup
  · exact completes_atom_predicate hpred
  · exact completes_atom_alternation hP hL halt
  · obtain ⟨o, value, c, ho, hvalue, hc, rfl⟩ := exists_of_mem_str hstr
    exact completes_of_eq (atom_str ho hvalue hc) (by simp)
  · obtain ⟨l, hl, rfl⟩ := Phrase.mem_one.mp hwild
    exact completes_of_eq (atom_wildcard hl) (by simp)
  · obtain ⟨l, hl, rfl⟩ := Phrase.mem_one.mp hanchor
    exact completes_of_eq (atom_anchor hl) (by simp)
  · exact completes_atom_field hL hfield
  · simp only [Language.mem_mul, Phrase.mem_one] at hneg
    obtain ⟨_, ⟨l, hl, rfl⟩, _, ⟨n, hn, rfl⟩, rfl⟩ := hneg
    exact completes_of_eq (atom_negatedField hl hn) (by simp)

end Nested

/-! ## The front of a phrase -/

/-- The words of the language have a first lexeme, and it begins a pattern. -/
def BeginsPattern (L : Language Lexeme) : Prop :=
  ∀ w ∈ L, ∃ l v, w = l :: v ∧ l.kind.startsPattern = true

theorem beginsPattern_one {k : TokenKind} (hk : k.startsPattern = true) :
    BeginsPattern (one k) := by
  rintro w ⟨l, hl, rfl⟩
  exact ⟨l, [], rfl, by rw [hl, hk]⟩

theorem BeginsPattern.mul {L : Language Lexeme} (hL : BeginsPattern L) (M : Language Lexeme) :
    BeginsPattern (L * M) := by
  intro w hw
  obtain ⟨u, hu, v, -, rfl⟩ := Language.mem_mul.mp hw
  obtain ⟨l, u, rfl, hl⟩ := hL u hu
  exact ⟨l, u ++ v, rfl, hl⟩

theorem BeginsPattern.add {L M : Language Lexeme} (hL : BeginsPattern L)
    (hM : BeginsPattern M) : BeginsPattern (L + M) := by
  intro w hw
  obtain hw | hw := (Language.mem_add L M w).mp hw
  · exact hL w hw
  · exact hM w hw

theorem beginsPattern_atom (L : Language Lexeme) : BeginsPattern (Phrase.atom L) := by
  have hparen : BeginsPattern (one .parenOpen) := beginsPattern_one rfl
  have hbracket : BeginsPattern (one .bracketOpen) := beginsPattern_one rfl
  have hquote : BeginsPattern (one .quote) := beginsPattern_one rfl
  have hident : BeginsPattern (one .ident) := beginsPattern_one rfl
  have hbang : BeginsPattern (one .bang) := beginsPattern_one rfl
  exact ((((((((((((hparen.mul _).mul _).mul _).mul _).add ((hparen.mul _).mul _)).add
    (((hparen.mul _).mul _).mul _)).add ((hbracket.mul _).mul _)).add ((hquote.mul _).mul _)).add
    (beginsPattern_one rfl)).add (beginsPattern_one rfl)).add ((hident.mul _).mul _)).add
    (hbang.mul _))

/-! ## Patterns -/

theorem beginsPattern_pattern (levels : Nat) : BeginsPattern (Phrase.pattern levels) := by
  cases levels with
  | zero => exact fun w hw ↦ absurd hw (Language.notMem_zero w)
  | succ levels => exact ((beginsPattern_atom _).mul _).mul _

theorem BeginsPattern.completesPattern {L : Language Lexeme} (h : BeginsPattern L)
    {p : Production} (hL : ∀ w ∈ L, Completes p w) : ∀ w ∈ L, CompletesPattern p w := by
  intro w hw
  obtain ⟨l, v, rfl, hl⟩ := h w hw
  exact ⟨List.cons_ne_nil l v, by simpa [PatternAhead] using hl, hL _ hw⟩

theorem exists_of_mem_mark {w : List Lexeme} (hw : w ∈ 1 + Phrase.quantifier) :
    ∃ mark : Option Lexeme, w = mark.toList ∧ ∀ l ∈ mark, l.kind.isQuantifier = true := by
  obtain rfl | hw := (Language.mem_add _ _ w).mp hw
  · exact ⟨none, rfl, by simp⟩
  · have hone : ∃ l, w = [l] := by
      obtain (⟨l, -, rfl⟩ | ⟨l, -, rfl⟩) | ⟨l, -, rfl⟩ := hw <;> exact ⟨l, rfl⟩
    obtain ⟨l, rfl⟩ := hone
    exact ⟨some l, rfl, by simpa using Phrase.singleton_mem_quantifier.mp hw⟩

/-- **Patterns of the language are read**, up to what they can take of what follows. -/
theorem pattern_completes (levels : Nat) {w : List Lexeme} (hw : w ∈ Phrase.pattern levels) :
    Completes (pattern levels) w := by
  induction levels generalizing w with
  | zero => exact absurd hw (Language.notMem_zero w)
  | succ levels ih =>
    have hinner : ∀ v ∈ Phrase.pattern levels, CompletesPattern (pattern levels) v :=
      (beginsPattern_pattern levels).completesPattern fun v hv ↦ ih hv
    obtain ⟨am, ham, names, hnames, rfl⟩ := Language.mem_mul.mp hw
    obtain ⟨a, ha, m, hm, rfl⟩ := Language.mem_mul.mp ham
    have hnames' := Phrase.mem_kstar_one.mp hnames
    obtain ⟨mark, rfl, hmark⟩ := exists_of_mem_mark hm
    intro s
    -- the atom may already have taken some of the pattern's own quantifier and captures
    obtain ⟨ts, s', hleft, hread⟩ := completes_atom (pattern_advances levels) hinner ha
      (mark.toList ++ (names ++ s))
    obtain ⟨us, hus⟩ := captured_quantified_append ts s'
    refine ⟨us, afterSuffix s', leftOf_afterSuffix hmark hnames' hleft, fun tail htail ↦ ?_⟩
    have heq : a ++ mark.toList ++ names ++ (s ++ tail) =
        a ++ (mark.toList ++ (names ++ s) ++ tail) := by simp
    rw [pattern_succ, heq, hread tail htail, hus tail htail]

/-- Lexemes that are read pattern by pattern are all that the root reads. -/
theorem ReadsEach.root_eq {ls : List Lexeme} {ts : List (Tree Lexeme)}
    (h : ReadsEach (pattern maxDepth) ls ts) : root ls = ⟨ts, [], []⟩ := by
  have heq : root (ls ++ []) = Parsed.andThen ⟨ts, [], []⟩ root :=
    h.patterns_eq (pattern_advances maxDepth) (fun _ _ ↦ rfl) noSuffix_nil
  rw [List.append_nil] at heq
  rw [heq]
  exact andThen_nothing root_nil

/-- A word of the language in front of other lexemes is read without a report, and the others are
read as if they stood alone. -/
theorem root_append {w : List Lexeme} (hw : w ∈ Phrase.root) :
    ∃ ts, ∀ ls, NoSuffix ls → root (w ++ ls) = Parsed.andThen ⟨ts, [], ls⟩ root := by
  have hinner : ∀ v ∈ Phrase.pattern maxDepth, CompletesPattern (pattern maxDepth) v :=
    (beginsPattern_pattern maxDepth).completesPattern fun v hv ↦ pattern_completes maxDepth hv
  obtain ⟨ts, hts⟩ := exists_readsEach hinner hw
  exact ⟨ts, fun ls hls ↦ hts.patterns_eq (pattern_advances maxDepth) (fun _ _ ↦ rfl) hls⟩

/-- **The language of queries is what is read without a report.** -/
theorem reports_root_eq_nil_iff (ls : List Lexeme) :
    (root ls).reports = [] ↔ ls ∈ Phrase.root := by
  constructor
  · intro h
    obtain ⟨w, hw, hls⟩ := root_takesWord ls h
    rw [rest_root, List.append_nil] at hls
    rwa [← hls]
  · intro h
    obtain ⟨ts, hts⟩ := root_append h
    have hread := hts [] noSuffix_nil
    rw [List.append_nil] at hread
    rw [hread]
    rfl

end Production

/-! ## Diagnostics -/

theorem onePerPlace_eq_nil_iff (rs : List Report) : onePerPlace rs = [] ↔ rs = [] := by
  cases rs with
  | nil => simp [onePerPlace, onePerPlaceAfter]
  | cons r rs => simp [onePerPlace, onePerPlaceAfter]

theorem Problem.severity_kind (p : Problem) : p.kind.severity = .error := by
  cases p <;> rfl

theorem Report.severity_toDiagnostic (tokens : Array Token) (stop : Nat) (r : Report) :
    (r.toDiagnostic tokens stop).severity = .error := by
  have h := r.problem.severity_kind
  rw [Report.toDiagnostic]
  dsimp only
  split <;> exact h

theorem Predicate.kind_warning {p : Predicate} {d : Diagnostic} (h : p.warning? = some d) :
    d.kind = .invalidPredicateRegex := by
  rw [Predicate.warning?] at h
  split at h
  · split at h
    · contradiction
    · rw [← Option.some_inj.mp h]
  · contradiction

/-- A predicate whose pattern is no regular expression is no error. -/
theorem Predicate.severity_warning {p : Predicate} {d : Diagnostic} (h : p.warning? = some d) :
    d.severity = .warning := by
  rw [Diagnostic.severity, Predicate.kind_warning h]
  rfl

/-- A text has an error exactly if the productions have reported something. -/
theorem Document.anyError_parse_iff (source : String) :
    Diagnostic.anyError (Document.parse source).diagnostics = false ↔
      (Production.root (significant source)).reports = [] := by
  have hdiagnostics : (Document.parse source).diagnostics =
      (Query.parse source).2 ++
        (Expr.predicatesAll (Query.parse source).1.exprs).filterMap Predicate.warning? := rfl
  have hproblems : (Query.parse source).2 =
      (onePerPlace (Production.root (significant source)).reports).map
        (·.toDiagnostic ((tokenize source).filter (!·.kind.isTrivia)).toArray
          source.utf8ByteSize) := rfl
  rw [← onePerPlace_eq_nil_iff, Diagnostic.anyError, List.any_eq_false, hdiagnostics, hproblems]
  constructor
  · intro h
    rw [List.eq_nil_iff_forall_not_mem]
    intro r hr
    refine h _ (List.mem_append_left _ (List.mem_map_of_mem hr)) ?_
    rw [Report.severity_toDiagnostic]
    rfl
  · intro h d hd
    rw [h, List.map_nil, List.nil_append] at hd
    obtain ⟨p, -, hp⟩ := List.mem_filterMap.mp hd
    rw [Predicate.severity_warning hp]
    decide

/-- **A query text is accepted exactly if it is a word of the language**: no diagnostic is an
error if and only if its significant lexemes can be derived. -/
theorem Document.accepts_iff_mem_root (source : String) :
    Diagnostic.anyError (Document.parse source).diagnostics = false ↔
      significant source ∈ Phrase.root :=
  (Document.anyError_parse_iff source).trans (Production.reports_root_eq_nil_iff _)

end Concord.Query
