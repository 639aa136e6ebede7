import Concord.Proofs.Query.Within

/-!
# Nodes without their closer

Trees, groups, predicates and alternations stand between delimiters, and only the end of a text
can leave one of them without its closer.  So all nodes without a closer stand at the right edge
of the tree of a text, one inside of the other.

* `Tree.Unclosed kindOf t` says that `t` is a node without its closer.  It is stated for any type
  of leaves that have a kind, since the productions build their trees over lexemes and the tree of
  a text is one over tokens.
* `Tree.Innermost kindOf n t` says that `n` is the innermost unclosed node of `t`, at its right
  edge, and that everything in front of it is closed.
* `Tree.exists_innermostAmong_of_bareAll` carries this over from the trees that the productions
  built to the tree of a text.
-/

set_option autoImplicit false

namespace Concord.Query

/-- The token that ends the nodes of a kind, if these stand between delimiters. -/
def NodeKind.closer? : NodeKind → Option TokenKind
  | tree | group | predicate => some .parenClose
  | alternation => some .bracketClose
  | _ => none

namespace Tree

section Innermost

variable {α : Type} (kindOf : α → TokenKind)

/-- The tree is a node that stands between delimiters, and its closer is not among its children. -/
inductive Unclosed : Tree α → Prop
  | node {kind : NodeKind} {closer : TokenKind} {children : List (Tree α)}
    (hkind : kind.closer? = some closer) (h : ∀ a, leaf a ∈ children → kindOf a ≠ closer) :
    Unclosed (.node kind children)

/-- No node of the tree lacks its closer. -/
def Closed (t : Tree α) : Prop := ∀ n : Tree α, n.Within t → ¬ n.Unclosed kindOf

/-- The tree is a leaf that means nothing. -/
def Blank (t : Tree α) : Prop := ∃ a, t = leaf a ∧ (kindOf a).isTrivia = true

mutual

/-- The node `n` is unclosed and all that is inside of it is closed; it stands at the right edge of
the tree, and all that is in front of it is closed. -/
def Innermost (n : Tree α) : Tree α → Prop
  | leaf _ => False
  | node kind children =>
    n = node kind children ∧ n.Unclosed kindOf ∧ (∀ c ∈ children, c.Closed kindOf) ∨
      InnermostAmong n children

/-- The node `n` is the innermost unclosed node of one of the trees; those in front are closed, and
there are only trivia behind. -/
def InnermostAmong (n : Tree α) : List (Tree α) → Prop
  | [] => False
  | t :: ts =>
    (Innermost n t ∧ ∀ u ∈ ts, u.Blank kindOf) ∨ (t.Closed kindOf ∧ InnermostAmong n ts)

end

variable {kindOf : α → TokenKind} {n t : Tree α} {ts : List (Tree α)}

theorem closed_leaf (a : α) : (leaf a).Closed kindOf := by
  intro n hn hunclosed
  obtain rfl := within_leaf_iff.mp hn
  cases hunclosed

theorem Blank.closed (h : t.Blank kindOf) : t.Closed kindOf := by
  obtain ⟨a, rfl, -⟩ := h
  exact closed_leaf a

theorem closed_node_iff {kind : NodeKind} {children : List (Tree α)} :
    (node kind children).Closed kindOf ↔
      ¬ (node kind children).Unclosed kindOf ∧ ∀ c ∈ children, c.Closed kindOf := by
  constructor
  · exact fun h ↦ ⟨h _ .refl, fun c hc n hn ↦ h n (.child hc hn)⟩
  · rintro ⟨hnode, hchildren⟩ n hn
    rcases within_node_iff.mp hn with rfl | ⟨c, hc, hn⟩
    · exact hnode
    · exact hchildren c hc n hn

/-- A node that stands between no delimiters is not unclosed. -/
theorem not_unclosed_of_closer?_eq_none {kind : NodeKind} {children : List (Tree α)}
    (h : kind.closer? = none) : ¬ (node kind children).Unclosed kindOf := by
  rintro ⟨hkind, -⟩
  rw [h] at hkind
  contradiction

/-- Closed trees in front do not matter. -/
theorem InnermostAmong.append (hts : ∀ t ∈ ts, t.Closed kindOf) {us : List (Tree α)}
    (h : InnermostAmong kindOf n us) : InnermostAmong kindOf n (ts ++ us) := by
  induction ts with
  | nil => exact h
  | cons t ts ih =>
    rw [List.forall_mem_cons] at hts
    exact .inr ⟨hts.1, ih hts.2⟩

mutual

theorem Innermost.unclosed_within : (t : Tree α) → n.Innermost kindOf t →
    n.Unclosed kindOf ∧ n.Within t
  | leaf _, h => h.elim
  | node _ children, .inl ⟨heq, hunclosed, _⟩ => ⟨hunclosed, heq ▸ .refl⟩
  | node _ children, .inr h => by
    obtain ⟨hunclosed, c, hc, hn⟩ := InnermostAmong.unclosed_within children h
    exact ⟨hunclosed, .child hc hn⟩

theorem InnermostAmong.unclosed_within : (ts : List (Tree α)) → InnermostAmong kindOf n ts →
    n.Unclosed kindOf ∧ ∃ t ∈ ts, n.Within t
  | [], h => h.elim
  | t :: ts, .inl ⟨h, _⟩ => by
    obtain ⟨hunclosed, hn⟩ := Innermost.unclosed_within t h
    exact ⟨hunclosed, t, List.mem_cons_self, hn⟩
  | t :: ts, .inr ⟨_, h⟩ => by
    obtain ⟨hunclosed, u, hu, hn⟩ := InnermostAmong.unclosed_within ts h
    exact ⟨hunclosed, u, List.mem_cons_of_mem t hu, hn⟩

end

mutual

/-- **The innermost unclosed node** stands inside of every other one. -/
theorem Innermost.within_of_unclosed : (t : Tree α) → n.Innermost kindOf t →
    ∀ m : Tree α, m.Within t → m.Unclosed kindOf → n.Within m
  | leaf _, h, _, _, _ => h.elim
  | node kind children, h, m, hm, hunclosed => by
    rcases within_node_iff.mp hm with rfl | ⟨c, hc, hm⟩
    · exact (Innermost.unclosed_within _ h).2
    · rcases h with ⟨-, -, hchildren⟩ | h
      · exact absurd hunclosed (hchildren c hc m hm)
      · exact InnermostAmong.within_of_unclosed children h c hc m hm hunclosed

theorem InnermostAmong.within_of_unclosed : (ts : List (Tree α)) → InnermostAmong kindOf n ts →
    ∀ t ∈ ts, ∀ m : Tree α, m.Within t → m.Unclosed kindOf → n.Within m
  | [], h, _, _, _, _, _ => h.elim
  | t :: ts, .inl ⟨h, hblank⟩, u, hu, m, hm, hunclosed => by
    rcases List.mem_cons.mp hu with heq | hu
    · rw [heq] at hm
      exact Innermost.within_of_unclosed t h m hm hunclosed
    · exact absurd hunclosed ((hblank u hu).closed m hm)
  | t :: ts, .inr ⟨hclosed, h⟩, u, hu, m, hm, hunclosed => by
    rcases List.mem_cons.mp hu with rfl | hu
    · exact absurd hunclosed (hclosed m hm)
    · exact InnermostAmong.within_of_unclosed ts h u hu m hm hunclosed

end

theorem isTrivia_of_forall_blank (h : ∀ t ∈ ts, t.Blank kindOf) :
    ∀ a ∈ leavesAll ts, (kindOf a).isTrivia = true := by
  induction ts with
  | nil => simp [leavesAll]
  | cons t ts ih =>
    rw [List.forall_mem_cons] at h
    obtain ⟨⟨a, rfl, ha⟩, hts⟩ := h
    exact List.forall_mem_cons.mpr ⟨ha, ih hts⟩

mutual

/-- Behind the innermost unclosed node there is nothing that means something. -/
theorem Innermost.exists_leaves : (t : Tree α) → n.Innermost kindOf t →
    ∃ before after, t.leaves = before ++ n.leaves ++ after ∧
      ∀ a ∈ after, (kindOf a).isTrivia = true
  | leaf _, h => h.elim
  | node _ _, .inl ⟨heq, _, _⟩ => ⟨[], [], by simp [heq], by simp⟩
  | node _ children, .inr h => InnermostAmong.exists_leaves children h

theorem InnermostAmong.exists_leaves : (ts : List (Tree α)) → InnermostAmong kindOf n ts →
    ∃ before after, leavesAll ts = before ++ n.leaves ++ after ∧
      ∀ a ∈ after, (kindOf a).isTrivia = true
  | [], h => h.elim
  | t :: ts, .inl ⟨h, hblank⟩ => by
    obtain ⟨before, after, hleaves, hafter⟩ := Innermost.exists_leaves t h
    refine ⟨before, after ++ leavesAll ts, by rw [leavesAll, hleaves, List.append_assoc], ?_⟩
    exact fun a ha ↦ (List.mem_append.mp ha).elim (hafter a) (isTrivia_of_forall_blank hblank a)
  | t :: ts, .inr ⟨_, h⟩ => by
    obtain ⟨before, after, hleaves, hafter⟩ := InnermostAmong.exists_leaves ts h
    exact ⟨t.leaves ++ before, after, by rw [leavesAll, hleaves]; simp only [List.append_assoc],
      hafter⟩

end

end Innermost

/-! ## From lexemes to tokens -/

theorem leaf_mem_bareAll {ts : List (Tree Token)} {l : Lexeme} :
    leaf l ∈ bareAll ts ↔ ∃ t : Token, leaf t ∈ ts ∧ t.kind.isTrivia = false ∧ t.toLexeme = l := by
  rw [mem_bareAll]
  constructor
  · rintro ⟨t, ht, hl⟩
    cases t with
    | leaf t =>
      rw [bare] at hl
      split at hl
      · contradiction
      · rename_i htrivia
        exact ⟨t, ht, by simpa using htrivia, (leaf.inj (List.mem_singleton.mp hl)).symm⟩
    | node kind children => simp [bare] at hl
  · rintro ⟨t, ht, htrivia, rfl⟩
    refine ⟨leaf t, ht, ?_⟩
    rw [bare, htrivia, if_neg Bool.false_ne_true]
    exact List.mem_singleton_self _

theorem isTrivia_of_closer?_eq_some {kind : NodeKind} {closer : TokenKind}
    (h : kind.closer? = some closer) : closer.isTrivia = false := by
  cases kind <;> simp only [NodeKind.closer?, Option.some.injEq, reduceCtorEq] at h <;>
    subst h <;> rfl

/-- A node lacks its closer exactly if it does without its trivia. -/
theorem unclosed_bareAll_iff {kind : NodeKind} {children : List (Tree Token)} :
    (node kind (bareAll children)).Unclosed Lexeme.kind ↔
      (node kind children).Unclosed fun t : Token ↦ t.kind := by
  constructor
  · rintro ⟨hkind, h⟩
    refine .node hkind fun t ht heq ↦ ?_
    have htrivia : t.kind.isTrivia = false := by rw [heq, isTrivia_of_closer?_eq_some hkind]
    exact h t.toLexeme (leaf_mem_bareAll.mpr ⟨t, ht, htrivia, rfl⟩) heq
  · rintro ⟨hkind, h⟩
    refine .node hkind fun l hl heq ↦ ?_
    obtain ⟨t, ht, -, rfl⟩ := leaf_mem_bareAll.mp hl
    exact h t ht heq

/-- A tree is one tree without its trivia, unless it means nothing. -/
theorem blank_or_exists_bare (t : Tree Token) :
    bare t = [] ∧ (t.Blank fun t : Token ↦ t.kind) ∨ ∃ b, bare t = [b] := by
  cases t with
  | leaf t =>
    rw [bare]
    split
    · rename_i htrivia
      exact .inl ⟨rfl, t, rfl, htrivia⟩
    · exact .inr ⟨_, rfl⟩
  | node kind children => exact .inr ⟨_, rfl⟩

mutual

theorem closed_of_bare : (t : Tree Token) → (∀ b ∈ bare t, b.Closed Lexeme.kind) →
    t.Closed fun t : Token ↦ t.kind
  | leaf t, _ => closed_leaf t
  | node kind children, h => by
    rw [bare, List.forall_mem_singleton, closed_node_iff, unclosed_bareAll_iff] at h
    exact closed_node_iff.mpr ⟨h.1, closedAll_of_bareAll children h.2⟩

theorem closedAll_of_bareAll : (ts : List (Tree Token)) →
    (∀ b ∈ bareAll ts, b.Closed Lexeme.kind) → ∀ t ∈ ts, t.Closed fun t : Token ↦ t.kind
  | [], _ => List.forall_mem_nil _
  | t :: ts, h => by
    rw [bareAll, List.forall_mem_append] at h
    exact List.forall_mem_cons.mpr ⟨closed_of_bare t h.1, closedAll_of_bareAll ts h.2⟩

end

/-- What means nothing without its trivia means nothing. -/
theorem forall_blank_of_bareAll : (ts : List (Tree Token)) →
    (∀ b ∈ bareAll ts, b.Blank Lexeme.kind) → ∀ t ∈ ts, t.Blank fun t : Token ↦ t.kind
  | [], _ => List.forall_mem_nil _
  | t :: ts, h => by
    rw [bareAll, List.forall_mem_append] at h
    refine List.forall_mem_cons.mpr ⟨?_, forall_blank_of_bareAll ts h.2⟩
    rcases blank_or_exists_bare t with ⟨-, hblank⟩ | ⟨b, hb⟩
    · exact hblank
    · -- what is left of `t` would be trivia, and none of these is left
      obtain ⟨l, rfl, hl⟩ := h.1 b (by rw [hb]; exact List.mem_singleton_self b)
      have hmem : leaf l ∈ bareAll [t] := by
        rw [bareAll, hb]
        exact List.mem_cons_self
      obtain ⟨a, -, htrivia, rfl⟩ := leaf_mem_bareAll.mp hmem
      rw [htrivia] at hl
      contradiction

mutual

theorem exists_innermost_of_bare {n : Tree Lexeme} : (t : Tree Token) →
    ∀ b ∈ bare t, n.Innermost Lexeme.kind b →
      ∃ n' : Tree Token, n'.Innermost (fun t : Token ↦ t.kind) t ∧ n'.bare = [n]
  | leaf t, b, hb, h => by
    rw [bare] at hb
    split at hb
    · contradiction
    · rw [List.mem_singleton.mp hb, Innermost] at h
      contradiction
  | node kind children, b, hb, h => by
    rw [bare, List.mem_singleton] at hb
    subst hb
    rcases h with ⟨rfl, hunclosed, hchildren⟩ | h
    · exact ⟨node kind children, .inl ⟨rfl, unclosed_bareAll_iff.mp hunclosed,
        closedAll_of_bareAll children hchildren⟩, rfl⟩
    · obtain ⟨n', hn', hbare⟩ := exists_innermostAmong_of_bareAll children h
      exact ⟨n', .inr hn', hbare⟩

/-- **The innermost unclosed node of the tree of a text** is the one of the trees that the
productions built. -/
theorem exists_innermostAmong_of_bareAll {n : Tree Lexeme} : (ts : List (Tree Token)) →
    InnermostAmong Lexeme.kind n (bareAll ts) →
      ∃ n', InnermostAmong (fun t : Token ↦ t.kind) n' ts ∧ n'.bare = [n]
  | [], h => h.elim
  | t :: ts, h => by
    rw [bareAll] at h
    rcases blank_or_exists_bare t with ⟨hnil, hblank⟩ | ⟨b, hb⟩
    · rw [hnil, List.nil_append] at h
      obtain ⟨n', hn', hbare⟩ := exists_innermostAmong_of_bareAll ts h
      exact ⟨n', .inr ⟨hblank.closed, hn'⟩, hbare⟩
    · rw [hb, List.singleton_append] at h
      rcases h with ⟨h, hafter⟩ | ⟨hclosed, h⟩
      · obtain ⟨n', hn', hbare⟩ := exists_innermost_of_bare t b (by rw [hb]; simp) h
        exact ⟨n', .inl ⟨hn', forall_blank_of_bareAll ts hafter⟩, hbare⟩
      · obtain ⟨n', hn', hbare⟩ := exists_innermostAmong_of_bareAll ts h
        exact ⟨n', .inr ⟨closed_of_bare t (by rwa [hb, List.forall_mem_singleton]), hn'⟩, hbare⟩

end

end Tree

end Concord.Query
