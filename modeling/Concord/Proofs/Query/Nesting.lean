import Concord.Proofs.Query.Diagnostics
import Concord.Proofs.Query.Progress
import Concord.Proofs.Query.Within

/-!
# How deep patterns nest

A text can nest its patterns as deep as it likes, but the productions follow it for so many levels
only; then they take all that is left into one node.  So neither the productions nor the trees that
they build go deeper, and no walk over such a tree does.

* `Lists` and `Opens` say where a production runs the production of inner patterns;
  `patterns_congr` and `atom_congr` say that it runs it nowhere else.
* `Inside` follows these through a whole text; `root_congr` says that a pattern runs nowhere else.
  `Inside.depth_add` counts the productions that run inside one another, and `Inside.begins` and
  `Inside.suffix` say at which places they do.
* `Tree.AtDepth` says how deep a tree stands in another one, and `Expr.depth` how deep a walk over
  an expression goes.  The height of the tree bounds both (`AtDepth.add_height_le`,
  `Tree.depth_le_height`), and `heightAll_operation` bounds that.
* `Document.parse_bounded` puts these together, for every text.
-/

set_option autoImplicit false

namespace Concord.Query

/-! ## Where inner patterns are read -/

namespace Production

/-- Where `patterns pattern stop` reads `ls`, it runs `pattern` at `ms`. -/
inductive Lists (pattern : Production) (stop : TokenKind → Bool) :
    (ls ms : List Lexeme) → Prop
  | here {l : Lexeme} {ls : List Lexeme} (hstop : stop l.kind = false)
    (hl : l.kind.startsPattern = true) : Lists pattern stop (l :: ls) (l :: ls)
  | behind {l : Lexeme} {ls ms : List Lexeme} (hstop : stop l.kind = false)
    (h : Lists pattern stop
      ((if l.kind.startsPattern then pattern else strayToken l.kind) (l :: ls)).rest ms) :
    Lists pattern stop (l :: ls) ms

/-- Where `atom pattern` reads `ls`, it runs `pattern` at `ms`: for a member of a tree or of a
group, a branch of an alternation, or the value of a field. -/
inductive Opens (pattern : Production) : (ls ms : List Lexeme) → Prop
  | tree {l m : Lexeme} {ls ms : List Lexeme} (hl : l.kind = .parenOpen)
    (hm : m.kind = .ident ∨ m.kind = .underscore)
    (h : Lists pattern (· = .parenClose) (subtype ls).rest ms) : Opens pattern (l :: m :: ls) ms
  | group {l m : Lexeme} {ls ms : List Lexeme} (hl : l.kind = .parenOpen)
    (hm : m.kind ∉ [.parenClose, .ident, .underscore, .predicateName])
    (h : Lists pattern (· = .parenClose) (m :: ls) ms) : Opens pattern (l :: m :: ls) ms
  | alternation {l : Lexeme} {ls ms : List Lexeme} (hl : l.kind = .bracketOpen)
    (h : Lists pattern (· = .bracketClose) ls ms) : Opens pattern (l :: ls) ms
  | field {l m n : Lexeme} {ls : List Lexeme} (hl : l.kind = .ident) (hm : m.kind = .colon)
    (hn : n.kind.startsPattern = true) : Opens pattern (l :: m :: n :: ls) (n :: ls)

section Congr

variable {p q : Production}

/-- **A list of patterns runs `pattern` where it says**, and nowhere else. -/
theorem patterns_congr {stop : TokenKind → Bool} {ls : List Lexeme}
    (h : ∀ ms, Lists p stop ls ms → q ms = p ms) : patterns q stop ls = patterns p stop ls := by
  have within (fuel : List Lexeme) : ∀ ls, (∀ ms, Lists p stop ls ms → q ms = p ms) →
      manyWithin stop (fun kind ↦ if kind.startsPattern then q else strayToken kind) fuel ls =
        manyWithin stop (fun kind ↦ if kind.startsPattern then p else strayToken kind) fuel ls := by
    induction fuel with
    | nil => exact fun _ _ ↦ rfl
    | cons f fuel ih =>
      intro ls h
      cases ls with
      | nil => rfl
      | cons l ls =>
        rw [manyWithin, manyWithin]
        dsimp only
        by_cases hstop : stop l.kind = true
        · rw [if_pos hstop, if_pos hstop]
        · have hitem : (if l.kind.startsPattern then q else strayToken l.kind) (l :: ls) =
              (if l.kind.startsPattern then p else strayToken l.kind) (l :: ls) := by
            split
            · exact h _ (.here (by simpa using hstop) ‹_›)
            · rfl
          rw [if_neg hstop, if_neg hstop, hitem, Parsed.andThen, Parsed.andThen,
            ih _ fun ms hms ↦ h ms (.behind (by simpa using hstop) hms)]
  exact within ls ls h

theorem seq_patterns_congr {r : Production} {stop : TokenKind → Bool} {ls : List Lexeme}
    (h : ∀ ms, Lists p stop (r ls).rest ms → q ms = p ms) :
    seq [r, patterns q stop] ls = seq [r, patterns p stop] ls := by
  rw [seq_pair, seq_pair, Parsed.andThen, Parsed.andThen, patterns_congr h]

theorem parenBody_congr {l : Lexeme} {ls : List Lexeme} (hl : l.kind = .parenOpen)
    (h : ∀ ms, Opens p (l :: ls) ms → q ms = p ms) :
    (parenBody q ls).1 = (parenBody p ls).1 ∧
      (parenBody q ls).2 ls = (parenBody p ls).2 ls := by
  cases ls with
  | nil => exact ⟨rfl, rfl⟩
  | cons m ls =>
    have tree (hm : m.kind = .ident ∨ m.kind = .underscore) :
        seq [token, subtype, patterns q (· = .parenClose)] (m :: ls) =
          seq [token, subtype, patterns p (· = .parenClose)] (m :: ls) := by
      rw [seq_cons, seq_cons token, Parsed.andThen, Parsed.andThen, token_cons,
        seq_patterns_congr fun ms hms ↦ h ms (.tree hl hm hms)]
    have group (hm : m.kind ∉ [.parenClose, .ident, .underscore, .predicateName]) :
        patterns q (· = .parenClose) (m :: ls) = patterns p (· = .parenClose) (m :: ls) ∧
          seq [report .expectedNodeType, patterns q (· = .parenClose)] (m :: ls) =
            seq [report .expectedNodeType, patterns p (· = .parenClose)] (m :: ls) :=
      ⟨patterns_congr fun ms hms ↦ h ms (.group hl hm hms),
        seq_patterns_congr fun ms hms ↦ h ms (.group hl hm hms)⟩
    rw [parenBody, parenBody, kindAhead_cons]
    cases hm : m.kind with
    | parenClose | predicateName => exact ⟨rfl, rfl⟩
    | ident => exact ⟨rfl, tree (.inl hm)⟩
    | underscore => exact ⟨rfl, tree (.inr hm)⟩
    | parenOpen | bracketOpen | quote | dot | bang =>
      simpa only [TokenKind.startsPattern, if_true, true_and] using (group (by simp [hm])).1
    | _ =>
      simpa only [TokenKind.startsPattern, Bool.false_eq_true, if_false, true_and] using
        (group (by simp [hm])).2

theorem paren_congr {l : Lexeme} {ls : List Lexeme} (hl : l.kind = .parenOpen)
    (h : ∀ ms, Opens p (l :: ls) ms → q ms = p ms) : paren q (l :: ls) = paren p (l :: ls) := by
  obtain ⟨hkind, hbody⟩ := parenBody_congr hl h
  rw [paren, paren, List.tail_cons]
  simp only [node, seq_cons, Parsed.andThen, token_cons, hkind, hbody]

theorem alternation_congr {l : Lexeme} {ls : List Lexeme} (hl : l.kind = .bracketOpen)
    (h : ∀ ms, Opens p (l :: ls) ms → q ms = p ms) :
    alternation q (l :: ls) = alternation p (l :: ls) := by
  have hbody : patterns q (· = .bracketClose) ls = patterns p (· = .bracketClose) ls :=
    patterns_congr fun ms hms ↦ h ms (.alternation hl hms)
  simp only [alternation, node, seq_cons, Parsed.andThen, token_cons, hbody]

theorem field_congr {l m : Lexeme} {ls : List Lexeme} (hl : l.kind = .ident)
    (hm : m.kind = .colon) (h : ∀ ms, Opens p (l :: m :: ls) ms → q ms = p ms) :
    field q (l :: m :: ls) = field p (l :: m :: ls) := by
  have hvalue : (if (kindAhead ls).any TokenKind.startsPattern then q ls
      else report .expectedFieldValue ls) =
        if (kindAhead ls).any TokenKind.startsPattern then p ls
        else report .expectedFieldValue ls := by
    cases ls with
    | nil => rfl
    | cons n ls =>
      split
      · exact h _ (.field hl hm ‹_›)
      · rfl
  simp only [field, node, seq_cons, Parsed.andThen, token_cons, hvalue]

/-- **An atom runs `pattern` where it opens one**, and nowhere else. -/
theorem atom_congr {ls : List Lexeme} (h : ∀ ms, Opens p ls ms → q ms = p ms) :
    atom q ls = atom p ls := by
  cases ls with
  | nil => rfl
  | cons l ls =>
    rw [atom, atom, kindAhead_cons]
    cases hl : l.kind with
    | parenOpen => exact paren_congr hl h
    | bracketOpen => exact alternation_congr hl h
    | ident =>
      dsimp only
      split
      · rename_i hcolon
        cases ls with
        | nil => contradiction
        | cons m ls => exact field_congr hl (Option.some_inj.mp hcolon) h
      · rfl
    | _ => rfl

end Congr

/-! ## Patterns inside one another -/

/-- Where `root` reads `ls`, a pattern runs at `ms` that is the `depth`-th of those that run inside
one another, and has `levels` levels left. -/
inductive Inside (ls : List Lexeme) : (depth levels : Nat) → (ms : List Lexeme) → Prop
  | top {ms : List Lexeme} (h : Lists (pattern maxDepth) (fun _ ↦ false) ls ms) :
    Inside ls 1 maxDepth ms
  | inner {depth levels : Nat} {ms ns : List Lexeme} (h : Inside ls depth (levels + 1) ms)
    (hopens : Opens (pattern levels) ms ns) : Inside ls (depth + 1) levels ns

/-- What a pattern does that has so many levels left, where `q` reads the patterns inside of it. -/
def patternWith (q : Nat → Production) : (levels : Nat) → Production
  | 0 => swallow
  | levels + 1 => fun ls ↦ captured (quantified (atom (q levels) ls))

section Places

variable {p : Production} {ls ms : List Lexeme}

theorem Lists.begins {stop : TokenKind → Bool} (h : Lists p stop ls ms) :
    (kindAhead ms).any TokenKind.startsPattern = true := by
  induction h with
  | here _ hl => exact hl
  | behind _ _ ih => exact ih

theorem Opens.begins (h : Opens p ls ms) : (kindAhead ms).any TokenKind.startsPattern = true := by
  cases h with
  | tree _ _ h | group _ _ h | alternation _ h => exact h.begins
  | field _ _ hn => exact hn

variable {n : Nat} (hp : Operation n p)
include hp

theorem Lists.suffix {stop : TokenKind → Bool} (h : Lists p stop ls ms) : ms <:+ ls := by
  induction h with
  | here => exact List.suffix_refl _
  | @behind l ls ms _ _ ih =>
    refine ih.trans ?_
    split
    · exact rest_operation hp _
    · exact rest_operation (operation_strayToken (n := 0) l.kind) _

/-- What is opened stands behind the opening token. -/
theorem Opens.suffix (h : Opens p ls ms) : ms <:+ ls.tail := by
  cases h with
  | tree _ _ h =>
    exact ((h.suffix hp).trans (rest_operation (operation_subtype (n := 0)) _)).trans
      (List.suffix_cons _ _)
  | group _ _ h | alternation _ h => exact h.suffix hp
  | field => exact List.suffix_cons _ _

end Places

namespace Inside

variable {ls ms : List Lexeme} {depth levels : Nat}

/-- Each pattern inside of another one has one level less. -/
theorem depth_add (h : Inside ls depth levels ms) : depth + levels = maxDepth + 1 := by
  induction h with
  | top => rw [Nat.add_comm]
  | inner _ _ ih => omega

/-- A pattern runs where one can begin. -/
theorem begins (h : Inside ls depth levels ms) :
    (kindAhead ms).any TokenKind.startsPattern = true := by
  cases h with
  | top h => exact h.begins
  | inner _ hopens => exact hopens.begins

/-- A pattern runs at an end of the text. -/
theorem suffix (h : Inside ls depth levels ms) : ms <:+ ls := by
  induction h with
  | top h => exact h.suffix (operation_pattern maxDepth)
  | @inner _ levels _ _ _ hopens ih =>
    exact ((hopens.suffix (operation_pattern levels)).trans (List.tail_suffix _)).trans ih

/-- **No more than `maxDepth` patterns run inside one another**; one more takes all the rest. -/
theorem depth_le (h : Inside ls depth levels ms) :
    depth ≤ maxDepth ∨ depth = maxDepth + 1 ∧ pattern levels = swallow := by
  have hadd := h.depth_add
  cases levels with
  | zero => exact .inr ⟨hadd, rfl⟩
  | succ inner => exact .inl (by omega)

/-- What does the same as a pattern wherever one runs reads the same there. -/
theorem eq_pattern {q : Nat → Production}
    (hq : ∀ depth levels ms, Inside ls depth levels ms → q levels ms = patternWith q levels ms)
    (h : Inside ls depth levels ms) : q levels ms = pattern levels ms := by
  induction levels generalizing depth ms with
  | zero => exact hq _ _ _ h
  | succ levels ih =>
    have hatom : atom (q levels) ms = atom (pattern levels) ms :=
      atom_congr fun ns hns ↦ ih (.inner h hns)
    rw [hq _ _ _ h]
    exact congrArg (captured <| quantified ·) hatom

end Inside

/-- **Patterns run nowhere else**: what does the same as a pattern wherever one runs reads the whole
text in the same way, whatever it does elsewhere. -/
theorem root_congr {q : Nat → Production} {ls : List Lexeme}
    (hq : ∀ depth levels ms, Inside ls depth levels ms → q levels ms = patternWith q levels ms) :
    patterns (q maxDepth) (fun _ ↦ false) ls = root ls :=
  patterns_congr fun _ hms ↦ Inside.eq_pattern hq (.top hms)

end Production

/-! ## Depth in trees -/

namespace Tree

/-- The tree `n` stands in a tree, with so many nodes around it. -/
inductive AtDepth {α : Type} (n : Tree α) : Nat → Tree α → Prop
  | here : AtDepth n 0 n
  | child {depth : Nat} {kind : NodeKind} {children : List (Tree α)} {c : Tree α}
    (hc : c ∈ children) (h : AtDepth n depth c) : AtDepth n (depth + 1) (node kind children)

theorem AtDepth.add_height_le {α : Type} {n t : Tree α} {depth : Nat} (h : AtDepth n depth t) :
    depth + n.height ≤ t.height := by
  induction h with
  | here => exact Nat.le_of_eq (Nat.zero_add _)
  | child hc _ ih =>
    have hle := height_le_heightAll hc
    rw [height]
    omega

mutual

theorem heightAll_bare : (t : Tree Token) → heightAll (bare t) = t.height
  | leaf t => by
    rw [bare]
    split <;> simp [heightAll, height]
  | node kind children => by
    simp [bare, heightAll, height, heightAll_bareAll children]

/-- Trivia makes no tree higher. -/
theorem heightAll_bareAll : (ts : List (Tree Token)) → heightAll (bareAll ts) = heightAll ts
  | [] => rfl
  | t :: ts => by
    rw [bareAll, heightAll_append, heightAll, heightAll_bare t, heightAll_bareAll ts]

end

end Tree

/-! ## Depth of expressions -/

namespace Expr

mutual

/-- How deep a walk over an expression goes. -/
def depth : Expr → Nat
  | tree _ _ _ children _ => depthAll children + 1
  | group _ children _ => depthAll children + 1
  | alternation _ branches => depthAll branches + 1
  | str _ | wildcard _ | anchor _ | negatedField .. => 1
  | field _ _ none | quantified _ _ none | captured _ _ none => 1
  | field _ _ (some inner) | quantified _ _ (some inner) | captured _ _ (some inner) =>
    inner.depth + 1

/-- How deep a walk over some expressions goes. -/
def depthAll : List Expr → Nat
  | [] => 0
  | e :: es => max e.depth (depthAll es)

end

theorem depth_le_depthAll {e : Expr} {es : List Expr} (he : e ∈ es) : e.depth ≤ depthAll es := by
  induction es with
  | nil => contradiction
  | cons f es ih =>
    rw [depthAll]
    rcases List.mem_cons.mp he with rfl | he
    · exact le_max_left _ _
    · exact (ih he).trans (le_max_right _ _)

end Expr

namespace Tree

mutual

theorem depth_le_height : (t : Tree Token) → ∀ e, Expr.ofTree? t = some e → e.depth ≤ t.height
  | leaf t, e, he => by simp [Expr.ofTree?] at he
  | node kind children, e, he => by
    have hle := depthAll_le_heightAll children
    have inner {f : Expr} (hf : (Expr.ofTrees children).head? = some f) :
        f.depth ≤ heightAll children :=
      (Expr.depth_le_depthAll (List.mem_of_head? hf)).trans hle
    rw [height]
    cases kind with
    | tree | group | alternation =>
      obtain rfl : _ = e := by simpa only [Expr.ofTree?, Option.some_inj] using he
      exact Nat.succ_le_succ hle
    | str | wildcard | anchor | negatedField =>
      obtain rfl : _ = e := by simpa only [Expr.ofTree?, Option.some_inj] using he
      exact Nat.le_add_left 1 _
    | field | quantifier | capture =>
      obtain rfl : _ = e := by simpa only [Expr.ofTree?, Option.some_inj] using he
      cases hhead : (Expr.ofTrees children).head? with
      | none => exact Nat.le_add_left 1 _
      | some f => exact Nat.succ_le_succ (inner hhead)
    | root | predicate | error => simp [Expr.ofTree?] at he

/-- **Expressions are no deeper than the trees that they are read off.** -/
theorem depthAll_le_heightAll : (ts : List (Tree Token)) →
    Expr.depthAll (Expr.ofTrees ts) ≤ heightAll ts
  | [] => Nat.zero_le _
  | t :: ts => by
    have hle := depthAll_le_heightAll ts
    rw [Expr.ofTrees, heightAll]
    split
    · exact max_le_max (depth_le_height t _ ‹_›) hle
    · exact hle.trans (le_max_right _ _)

end

end Tree

namespace Document

open Production

/-- The trees of a text are as high as the productions can build them. -/
theorem height_le (source : String) :
    (parse source).tree.height ≤ 3 * maxDepth + 2 := by
  have h := heightAll_operation operation_root (significant source)
  rw [← bareAll_children, Tree.heightAll_bareAll] at h
  exact Nat.succ_le_succ h

/-- **Every text is read to its end, and nothing goes deeper than it may.**  No production goes
back; each pattern and each stray token takes a lexeme; and in the end, none is left.  Patterns run
only where one can begin, and only `maxDepth` of them inside one another: one more takes all that is
left of the text.  Each of them adds three nodes at most, and so bounds the depth of every node in
the tree and of every walk over the expressions. -/
theorem parse_bounded (source : String) :
    (∀ n p, Operation n p → ∀ ls, (p ls).rest <:+ ls) ∧
      Operation 769 root ∧
      (∀ levels l ls, (pattern levels (l :: ls)).rest <:+ ls) ∧
      (∀ kind l ls, (strayToken kind (l :: ls)).rest = ls) ∧
      (root (significant source)).rest = [] ∧
      (parse source).tree.leaves = tokenize source ∧
      (∀ q : Nat → Production,
        (∀ depth levels ms, Inside (significant source) depth levels ms →
          q levels ms = patternWith q levels ms) →
        Production.patterns (q maxDepth) (fun _ ↦ false) (significant source) =
          root (significant source)) ∧
      (∀ depth levels ms, Inside (significant source) depth levels ms →
        (kindAhead ms).any TokenKind.startsPattern = true ∧ ms <:+ significant source ∧
          (depth ≤ 256 ∨ depth = 257 ∧ pattern levels = swallow ∧ (pattern levels ms).rest = [])) ∧
      (∀ depth kind children,
        Tree.AtDepth (.node kind children) depth (parse source).tree → depth ≤ 769) ∧
      ∀ e ∈ (parse source).exprs, e.depth ≤ 769 := by
  have hheight := height_le source
  refine ⟨fun _ _ ↦ rest_operation, operation_root, rest_pattern, rest_strayToken,
    rest_root _, Tree.leaves_weaveRoot _ _, fun _ ↦ root_congr, fun depth levels ms h ↦ ?_,
    fun depth kind children h ↦ ?_, fun e he ↦ ?_⟩
  · refine ⟨h.begins, h.suffix, ?_⟩
    rcases h.depth_le with hle | ⟨heq, hswallow⟩
    · exact .inl hle
    · exact .inr ⟨heq, hswallow, by rw [hswallow, swallow]⟩
  · have hle := h.add_height_le.trans hheight
    rw [Tree.height, maxDepth] at hle
    omega
  · have hle := Tree.depthAll_le_heightAll (parse source).tree.children
    exact (Expr.depth_le_depthAll he).trans (hle.trans (Nat.le_of_succ_le_succ hheight))

/-- A capture, a quantifier and a tree stand in the root. -/
example : (parse "(a)? @x").tree.height = 4 := by decide +kernel

end Document

end Concord.Query
