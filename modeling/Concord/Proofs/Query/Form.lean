import Concord.Proofs.Language
import Concord.Proofs.Query.Lossless

/-!
# The forms of nodes

What a node can have as its children depends on its kind alone, also where the productions have
recovered from errors.  Each kind has a form, which is a language over `ChildKind`: the kinds of
the tokens and nodes among the children.

* `Form.children kind` is the form of the nodes of a kind.
* `Tree.Formed t` says that every node of `t` is of its form.
* `Parsed.Builds p L` says that a result has built formed trees, and that these are a word of the
  language `L`.  The lemmas on it follow the productions, up to `Production.pattern_builds`.
* `formed_parse` says it of the tree of a whole text.
-/

set_option autoImplicit false

open Computability

namespace Concord.Query

/-! ## Forms -/

/-- What a child of a node is. -/
inductive ChildKind where
  | token (k : TokenKind)
  | node (k : NodeKind)
deriving DecidableEq, Repr

/-- What a tree is as a child. -/
def Tree.childKind : Tree Lexeme → ChildKind
  | leaf l => .token l.kind
  | node k _ => .node k

namespace Form

/-- One token of a kind. -/
def token (k : TokenKind) : Language ChildKind := ({[.token k]} : Set (List ChildKind))

theorem mem_token (k : TokenKind) : [.token k] ∈ token k := rfl

/-- One node of a kind. -/
def node (k : NodeKind) : Language ChildKind := ({[.node k]} : Set (List ChildKind))

/-- One token. -/
def anyToken : Language ChildKind := {w | ∃ k, w = [.token k]}

/-- One node, which is not another root. -/
def anyNode : Language ChildKind := {w | ∃ k, k ≠ .root ∧ w = [.node k]}

/-- What stands between the parentheses of a tree. -/
def treeBody : Language ChildKind :=
  (1 + (token .ident + token .underscore) * (1 + token .slash * (1 + token .ident))) * anyNode∗

/-- An argument of a predicate, or an error in its place. -/
def argument : Language ChildKind :=
  token .captureName + token .ident + token .underscore + node .str + node .error

/-- What stands between the parentheses of a predicate. -/
def predicateBody : Language ChildKind := token .predicateName * argument∗

/-- What stands between the parentheses of a group. -/
def groupBody : Language ChildKind := anyNode * anyNode∗

/-- The children that a node of a kind has. -/
def children : NodeKind → Language ChildKind
  | .root => anyNode∗
  | .tree => token .parenOpen * (treeBody * (1 + token .parenClose))
  | .group => token .parenOpen * (groupBody * (1 + token .parenClose))
  | .predicate => token .parenOpen * (predicateBody * (1 + token .parenClose))
  | .alternation => token .bracketOpen * (anyNode∗ * (1 + token .bracketClose))
  | .str => token .quote * ((1 + token .strVal) * (1 + token .quote))
  | .wildcard => token .underscore
  | .anchor => token .dot
  | .negatedField => token .bang * (1 + token .ident)
  | .field => token .ident * (token .colon * (1 + anyNode))
  | .quantifier => anyNode * (token .star + token .plus + token .question)
  | .capture => anyNode * (token .captureName * (token .captureName)∗)
  | .error => anyToken * anyToken∗

end Form

/-- Every node of the tree is of its form. -/
inductive Tree.Formed : Tree Lexeme → Prop
  | leaf (l : Lexeme) : Formed (.leaf l)
  | node {kind : NodeKind} {children : List (Tree Lexeme)}
    (hform : children.map Tree.childKind ∈ Form.children kind)
    (h : ∀ c ∈ children, Formed c) : Formed (.node kind children)

/-! ## Results that build formed trees -/

/-- The trees that were built are formed, and they are a word of the language. -/
structure Parsed.Builds (p : Parsed) (L : Language ChildKind) : Prop where
  formed : ∀ t ∈ p.trees, t.Formed
  word : p.trees.map Tree.childKind ∈ L

namespace Parsed

variable {p : Parsed} {L M : Language ChildKind}

theorem Builds.andThen {next : Production} (hp : p.Builds L) (hnext : (next p.rest).Builds M) :
    (p.andThen next).Builds (L * M) where
  formed t ht := (List.mem_append.mp ht).elim (hp.formed t) (hnext.formed t)
  word := by
    rw [Parsed.andThen, List.map_append]
    exact Language.append_mem_mul hp.word hnext.word

theorem Builds.mono (hp : p.Builds L) (hLM : ∀ w ∈ L, w ∈ M) : p.Builds M :=
  ⟨hp.formed, hLM _ hp.word⟩

theorem Builds.inl (hp : p.Builds L) : p.Builds (L + M) :=
  hp.mono fun w hw ↦ (Language.mem_add L M w).mpr (.inl hw)

theorem Builds.inr (hp : p.Builds M) : p.Builds (L + M) :=
  hp.mono fun w hw ↦ (Language.mem_add L M w).mpr (.inr hw)

/-- A node is put around what is of its form. -/
theorem Builds.wrap (kind : NodeKind) (hp : p.Builds (Form.children kind)) :
    (p.wrap kind).Builds (Form.node kind) where
  formed t ht := by
    rw [List.mem_singleton.mp ht]
    exact .node hp.word hp.formed
  word := rfl

/-- One node of a kind is one node. -/
theorem Builds.anyNode {kind : NodeKind} (hp : p.Builds (Form.node kind)) (hkind : kind ≠ .root) :
    p.Builds Form.anyNode :=
  hp.mono fun _ hw ↦ ⟨kind, hkind, hw⟩

theorem builds_nothing (rs : List Report) (ls : List Lexeme) : Parsed.Builds ⟨[], rs, ls⟩ 1 :=
  ⟨by simp, Language.nil_mem_one⟩

theorem builds_leaves (leaves : List Lexeme) (rs : List Report) (ls : List Lexeme)
    (h : leaves.map (fun l ↦ .token l.kind) ∈ L) : Parsed.Builds ⟨leaves.map .leaf, rs, ls⟩ L where
  formed t ht := by
    obtain ⟨l, -, rfl⟩ := List.mem_map.mp ht
    exact .leaf l
  word := by
    rw [List.map_map]
    exact h

end Parsed

namespace Production

open Form

variable {L M : Language ChildKind}

/-! ## Building blocks -/

theorem token_builds {k : TokenKind} {l : Lexeme} (h : l.kind = k) (ls : List Lexeme) :
    (token (l :: ls)).Builds (Form.token k) :=
  Parsed.builds_leaves [l] [] ls (by rw [List.map_singleton, h]; rfl)

theorem report_builds (problem : Problem) (ls : List Lexeme) : (report problem ls).Builds 1 :=
  Parsed.builds_nothing _ ls

/-- A token that may be missing. -/
theorem if_token_builds {k : TokenKind} {other : Production} {ls : List Lexeme}
    (hother : (other ls).Builds 1) :
    (if kindAhead ls = some k then token ls else other ls).Builds (1 + Form.token k) := by
  split
  · rename_i h
    cases ls with
    | nil => contradiction
    | cons l ls => exact (token_builds (Option.some_inj.mp h) ls).inr
  · exact hother.inl

theorem optional_builds (k : TokenKind) (ls : List Lexeme) :
    (optional k ls).Builds (1 + Form.token k) :=
  if_token_builds (Parsed.builds_nothing [] ls)

theorem expect_builds (k : TokenKind) (problem : Problem) (ls : List Lexeme) :
    (expect k problem ls).Builds (1 + Form.token k) :=
  if_token_builds (report_builds problem ls)

theorem close_builds (k : TokenKind) (problem : Nat → Problem) (opener ls : List Lexeme) :
    (close k problem opener ls).Builds (1 + Form.token k) :=
  if_token_builds (report_builds _ ls)

theorem seq_cons_builds {p : Production} {ps : List Production} {ls : List Lexeme}
    (hp : (p ls).Builds L) (hps : (seq ps (p ls).rest).Builds M) :
    (seq (p :: ps) ls).Builds (L * M) :=
  hp.andThen hps

theorem seq_last_builds {p : Production} {ls : List Lexeme} (hp : (p ls).Builds L) :
    (seq [p] ls).Builds L := by
  have h : (seq [p] ls).Builds (L * 1) := seq_cons_builds hp (Parsed.builds_nothing [] _)
  rwa [mul_one] at h

theorem many_builds {stop : TokenKind → Bool} {item : TokenKind → Production}
    (h : ∀ kind, Advances (item kind))
    (hitem : ∀ l ls, (item l.kind (l :: ls)).Builds L) (ls : List Lexeme) :
    (many stop item ls).Builds L∗ := by
  refine many_induction h (motive := fun _ p ↦ p.Builds L∗) ?_ ?_ ?_ ls
  · exact ⟨by simp, Language.nil_mem_kstar L⟩
  · exact fun l ls _ ↦ ⟨by simp, Language.nil_mem_kstar L⟩
  · intro l ls _ ih
    refine ((hitem l ls).andThen ih).mono fun w hw ↦ ?_
    obtain ⟨u, hu, v, hv, rfl⟩ := Language.mem_mul.mp hw
    exact append_mem_kstar hu hv

/-! ## Errors -/

theorem mem_anyToken (k : TokenKind) : [.token k] ∈ anyToken := ⟨k, rfl⟩

theorem mem_kstar_anyToken (ls : List Lexeme) :
    ls.map (fun l ↦ ChildKind.token l.kind) ∈ anyToken∗ := by
  induction ls with
  | nil => exact Language.nil_mem_kstar _
  | cons l ls ih => exact append_mem_kstar (mem_anyToken l.kind) ih

/-- Some lexemes in an error node. -/
theorem error_builds (l : Lexeme) (ls : List Lexeme) (rs : List Report) (rest : List Lexeme) :
    Parsed.Builds ⟨[.node .error ((l :: ls).map .leaf)], rs, rest⟩ (Form.node .error) :=
  Parsed.Builds.wrap .error (p := ⟨(l :: ls).map .leaf, rs, rest⟩)
    (Parsed.builds_leaves (l :: ls) rs rest
      (Language.append_mem_mul (mem_anyToken l.kind) (mem_kstar_anyToken ls)))

theorem stray_builds (problem : Problem) (l : Lexeme) (ls : List Lexeme) :
    (stray problem (l :: ls)).Builds (Form.node .error) :=
  error_builds l [] _ ls

theorem garbage_builds (l : Lexeme) (ls : List Lexeme) :
    (garbage (l :: ls)).Builds (Form.node .error) := by
  rw [garbage]
  split <;> exact stray_builds _ l ls

theorem strayToken_builds (k : TokenKind) (l : Lexeme) (ls : List Lexeme) :
    (strayToken k (l :: ls)).Builds (Form.node .error) := by
  rw [strayToken.eq_def]
  split
  all_goals first
    | exact stray_builds _ l ls
    | exact garbage_builds l ls

/-! ## Atoms -/

theorem str_builds {l : Lexeme} (hl : l.kind = .quote) (ls : List Lexeme) :
    (str (l :: ls)).Builds (Form.node .str) :=
  Parsed.Builds.wrap _ (seq_cons_builds (token_builds hl ls)
    (seq_cons_builds (optional_builds _ _) (seq_last_builds (expect_builds _ _ _))))

theorem negatedField_builds {l : Lexeme} (hl : l.kind = .bang) (ls : List Lexeme) :
    (negatedField (l :: ls)).Builds (Form.node .negatedField) :=
  Parsed.Builds.wrap _
    (seq_cons_builds (token_builds hl ls) (seq_last_builds (expect_builds _ _ _)))

theorem argument_builds (l : Lexeme) (ls : List Lexeme) :
    (Production.argument l.kind (l :: ls)).Builds Form.argument := by
  cases h : l.kind with
  | captureName => exact (token_builds h ls).inl.inl.inl.inl
  | ident => exact (token_builds h ls).inr.inl.inl.inl
  | underscore => exact (token_builds h ls).inr.inl.inl
  | quote => exact (str_builds h ls).inr.inl
  | garbage => exact (garbage_builds l ls).inr
  | _ => exact (stray_builds _ l ls).inr

theorem arguments_builds (ls : List Lexeme) : (arguments ls).Builds Form.argument∗ :=
  many_builds argument_advances argument_builds ls

theorem subtype_builds (ls : List Lexeme) :
    (subtype ls).Builds (1 + Form.token .slash * (1 + Form.token .ident)) := by
  rw [subtype]
  split
  · rename_i h
    cases ls with
    | nil => contradiction
    | cons l ls =>
      exact Parsed.Builds.inr (seq_cons_builds (token_builds (Option.some_inj.mp h) ls)
        (seq_last_builds (expect_builds _ _ _)))
  · exact (Parsed.builds_nothing [] ls).inl

section Nested

variable {pattern : Production}

/-- The production builds one node, whatever lexeme is next. -/
def BuildsNode (p : Production) : Prop := ∀ l ls, (p (l :: ls)).Builds anyNode

theorem item_builds (hP : BuildsNode pattern) (l : Lexeme) (ls : List Lexeme) :
    ((if l.kind.startsPattern then pattern else strayToken l.kind) (l :: ls)).Builds anyNode := by
  split
  · exact hP l ls
  · exact (strayToken_builds _ l ls).anyNode (by decide)

theorem patterns_builds (hp : Advances pattern) (hP : BuildsNode pattern)
    (stop : TokenKind → Bool) (ls : List Lexeme) : (patterns pattern stop ls).Builds anyNode∗ :=
  many_builds (item_advances hp) (item_builds hP) ls

/-- The kinds of nodes in parentheses have what `parenBody` says between these. -/
def bodyOf : NodeKind → Language ChildKind
  | .tree => treeBody
  | .predicate => predicateBody
  | _ => groupBody

/-- Patterns by themselves are the body of a tree without a type. -/
theorem treeBody_of_patterns {p : Parsed} (h : p.Builds anyNode∗) : p.Builds treeBody :=
  h.mono fun _ hw ↦ Language.append_mem_mul
    ((Language.mem_add _ _ _).mpr (.inl Language.nil_mem_one)) hw

theorem parenBody_builds (hp : Advances pattern) (hP : BuildsNode pattern) (ls : List Lexeme) :
    ((parenBody pattern ls).2 ls).Builds (bodyOf (parenBody pattern ls).1) := by
  have hpatterns := patterns_builds hp hP (· = .parenClose)
  have htree {l : Lexeme} (rest : List Lexeme)
      (h : (token (l :: rest)).Builds (Form.token .ident + Form.token .underscore)) :
      (seq [token, subtype, patterns pattern (· = .parenClose)] (l :: rest)).Builds treeBody := by
    have hseq := seq_cons_builds h
      (seq_cons_builds (subtype_builds rest) (seq_last_builds (hpatterns _)))
    rw [← mul_assoc] at hseq
    refine hseq.mono fun w hw ↦ ?_
    obtain ⟨u, hu, v, hv, rfl⟩ := Language.mem_mul.mp hw
    exact Language.append_mem_mul ((Language.mem_add _ _ _).mpr (.inr hu)) hv
  cases ls with
  | nil => exact treeBody_of_patterns ⟨by simp [parenBody, nothing], Language.nil_mem_kstar _⟩
  | cons l ls =>
    rw [parenBody, kindAhead_cons]
    split
    · contradiction
    · exact treeBody_of_patterns ⟨by simp [report], Language.nil_mem_kstar _⟩
    · rename_i h
      exact htree ls (token_builds (Option.some_inj.mp h) ls).inl
    · rename_i h
      exact htree ls (token_builds (Option.some_inj.mp h) ls).inr
    · rename_i h
      exact seq_cons_builds (token_builds (Option.some_inj.mp h) ls)
        (seq_last_builds (arguments_builds _))
    · rename_i kind hclose _ _ _ h
      obtain rfl := Option.some_inj.mp h
      split
      · have hstop : decide (l.kind = .parenClose) = false := by simpa using hclose
        dsimp only
        rw [patterns_cons hp, hstop, if_neg Bool.false_ne_true]
        exact (item_builds hP l ls).andThen (hpatterns _)
      · have hseq : (seq [report .expectedNodeType, patterns pattern (· = .parenClose)]
            (l :: ls)).Builds (1 * anyNode∗) :=
          seq_cons_builds (report_builds _ _) (seq_last_builds (hpatterns _))
        rw [one_mul] at hseq
        exact treeBody_of_patterns hseq

/-- What is put between parentheses is a tree, a group or a predicate. -/
theorem children_parenBody (ls : List Lexeme) :
    Form.children (parenBody pattern ls).1 =
      Form.token .parenOpen * (bodyOf (parenBody pattern ls).1 * (1 + Form.token .parenClose)) := by
  rw [parenBody]
  split
  all_goals first
    | rfl
    | split <;> rfl

theorem parenBody_ne_root (ls : List Lexeme) : (parenBody pattern ls).1 ≠ .root := by
  rw [parenBody]
  split
  all_goals first
    | exact NodeKind.noConfusion
    | split <;> exact NodeKind.noConfusion

theorem paren_builds (hp : Advances pattern) (hP : BuildsNode pattern) {l : Lexeme}
    (hl : l.kind = .parenOpen) (ls : List Lexeme) :
    (paren pattern (l :: ls)).Builds anyNode := by
  have hseq := seq_cons_builds (token_builds hl ls)
    (seq_cons_builds (parenBody_builds hp hP ls)
      (seq_last_builds (close_builds .parenClose .unclosedTree (l :: ls) _)))
  rw [← children_parenBody] at hseq
  exact (hseq.wrap _).anyNode (parenBody_ne_root ls)

theorem alternation_builds (hp : Advances pattern) (hP : BuildsNode pattern) {l : Lexeme}
    (hl : l.kind = .bracketOpen) (ls : List Lexeme) :
    (alternation pattern (l :: ls)).Builds (Form.node .alternation) :=
  Parsed.Builds.wrap _ (seq_cons_builds (token_builds hl ls)
    (seq_cons_builds (patterns_builds hp hP _ ls) (seq_last_builds (close_builds _ _ _ _))))

theorem field_builds (hP : BuildsNode pattern) {l c : Lexeme} (hl : l.kind = .ident)
    (hc : c.kind = .colon) (ls : List Lexeme) :
    (field pattern (l :: c :: ls)).Builds (Form.node .field) := by
  refine Parsed.Builds.wrap _ (seq_cons_builds (token_builds hl _)
    (seq_cons_builds (token_builds hc ls) (seq_last_builds ?_)))
  split
  · cases ls with
    | nil => contradiction
    | cons m ls => exact (hP m ls).inr
  · exact (report_builds _ _).inl

theorem atom_builds (hp : Advances pattern) (hP : BuildsNode pattern) :
    BuildsNode (atom pattern) := by
  intro l ls
  rw [atom, kindAhead_cons]
  cases h : l.kind with
  | parenOpen => exact paren_builds hp hP h ls
  | bracketOpen => exact (alternation_builds hp hP h ls).anyNode (by decide)
  | quote => exact (str_builds h ls).anyNode (by decide)
  | underscore =>
    exact (Parsed.Builds.wrap .wildcard (token_builds h ls)).anyNode (by decide)
  | dot => exact (Parsed.Builds.wrap .anchor (token_builds h ls)).anyNode (by decide)
  | bang => exact (negatedField_builds h ls).anyNode (by decide)
  | ident =>
    dsimp only
    split
    · cases ls with
      | nil => contradiction
      | cons c ls => exact (field_builds hP h (Option.some_inj.mp ‹_›) ls).anyNode (by decide)
    · exact (stray_builds _ l ls).anyNode (by decide)
  | _ => exact (stray_builds _ l ls).anyNode (by decide)

end Nested

/-! ## Patterns -/

theorem quantified_builds {p : Parsed} (h : p.Builds anyNode) : (quantified p).Builds anyNode := by
  rw [quantified]
  split
  · rename_i hahead
    obtain ⟨ts, rs, _ | ⟨l, ls⟩⟩ := p
    · contradiction
    · have hmark : (token (l :: ls)).Builds
          (Form.token .star + Form.token .plus + Form.token .question) := by
        cases hl : l.kind with
        | star => exact (token_builds hl ls).inl.inl
        | plus => exact (token_builds hl ls).inr.inl
        | question => exact (token_builds hl ls).inr
        | _ => simp [hl, TokenKind.isQuantifier] at hahead
      exact (Parsed.Builds.wrap .quantifier (h.andThen hmark)).anyNode (by decide)
  · exact h

/-- Some captures, at least one of them. -/
theorem names_mem_form (ls : List Lexeme) (h : kindAhead ls = some .captureName) :
    (ls.takeWhile (·.kind = .captureName)).map (fun l ↦ ChildKind.token l.kind) ∈
      Form.token .captureName * (Form.token .captureName)∗ := by
  have hall (ls : List Lexeme) :
      (ls.takeWhile (·.kind = .captureName)).map (fun l ↦ ChildKind.token l.kind) ∈
        (Form.token .captureName)∗ := by
    induction ls with
    | nil => exact Language.nil_mem_kstar _
    | cons l ls ih =>
      by_cases hl : l.kind = .captureName
      · rw [List.takeWhile_cons_of_pos (by simpa using hl), List.map_cons, hl]
        exact append_mem_kstar (mem_token .captureName) ih
      · rw [List.takeWhile_cons_of_neg (by simpa using hl)]
        exact Language.nil_mem_kstar _
  cases ls with
  | nil => contradiction
  | cons l ls =>
    have hl : l.kind = .captureName := Option.some_inj.mp h
    rw [List.takeWhile_cons_of_pos (by simpa using hl), List.map_cons, hl]
    exact Language.append_mem_mul (mem_token .captureName) (hall ls)

theorem captured_builds {p : Parsed} (h : p.Builds anyNode) : (captured p).Builds anyNode := by
  by_cases hahead : kindAhead p.rest = some .captureName
  · have hnames : (captureNames p.rest).Builds
        (Form.token .captureName * (Form.token .captureName)∗) :=
      Parsed.builds_leaves _ [] _ (names_mem_form p.rest hahead)
    rw [captured_of_ahead hahead]
    exact (Parsed.Builds.wrap .capture (h.andThen hnames)).anyNode (by decide)
  · rwa [captured, if_neg hahead]

theorem pattern_builds (levels : Nat) : BuildsNode (pattern levels) := by
  induction levels with
  | zero => exact fun l ls ↦ (error_builds l ls _ []).anyNode (by decide)
  | succ levels ih =>
    exact fun l ls ↦
      captured_builds (quantified_builds (atom_builds (pattern_advances levels) ih l ls))

theorem root_builds (ls : List Lexeme) : (root ls).Builds anyNode∗ :=
  patterns_builds (pattern_advances maxDepth) (pattern_builds maxDepth) _ ls

end Production

/-- **Every node of a text is of its form**, whatever the text is. -/
theorem formed_parse (source : String) :
    ∀ t ∈ (Document.parse source).tree.bare, t.Formed := by
  rw [bareAll_parse]
  intro t ht
  rw [List.mem_singleton.mp ht]
  have h := Production.root_builds (significant source)
  exact .node h.word h.formed

end Concord.Query
