import Concord.Proofs.Query.Sound

/-!
# Trees inside of trees

The tree of a text is a list of patterns, and most that can be said of a text is about the nodes
at any depth of these.

* `Tree.Within n t` says that `n` is `t` or stands somewhere inside of it.  What is sound is sound
  all the way down (`Tree.Sound.within`), and the leaves of what stands inside are a stretch of
  the leaves around it (`Tree.Within.exists_leaves`).
* `Tree.listing f t` is what `f` lists of the expression that `t` is.  A field, a quantifier and a
  capture look only at the first expression among their children, but there is no other one
  (`Tree.Sound.listing_head`).
-/

set_option autoImplicit false

namespace Concord.Query

namespace Tree

/-! ## Children -/

section Children

variable {α : Type}

/-- The children of a node. -/
def children : Tree α → List (Tree α)
  | leaf _ => []
  | node _ children => children

theorem leaves_sublist_of_mem {t : Tree α} {ts : List (Tree α)} (ht : t ∈ ts) :
    t.leaves.Sublist (leavesAll ts) := by
  induction ts with
  | nil => contradiction
  | cons u ts ih =>
    rcases List.mem_cons.mp ht with rfl | ht
    · exact List.sublist_append_left _ _
    · exact (ih ht).trans (List.sublist_append_right _ _)

theorem exists_leavesAll_of_mem {t : Tree α} {ts : List (Tree α)} (ht : t ∈ ts) :
    ∃ before after, leavesAll ts = before ++ t.leaves ++ after := by
  obtain ⟨before, after, rfl⟩ := List.append_of_mem ht
  exact ⟨leavesAll before, leavesAll after, by
    rw [leavesAll_append, leavesAll, List.append_assoc]⟩

end Children

/-! ## Trees at any depth -/

/-- The tree `n` is another tree or stands inside of it. -/
inductive Within {α : Type} (n : Tree α) : Tree α → Prop
  | refl : Within n n
  | child {kind : NodeKind} {children : List (Tree α)} {c : Tree α} (hc : c ∈ children)
    (h : Within n c) : Within n (.node kind children)

section Within

variable {α : Type} {n t : Tree α}

theorem within_leaf_iff {a : α} : n.Within (leaf a) ↔ n = leaf a := by
  constructor
  · rintro ⟨⟩
    rfl
  · rintro rfl
    exact .refl

theorem within_node_iff {kind : NodeKind} {children : List (Tree α)} :
    n.Within (node kind children) ↔ n = node kind children ∨ ∃ c ∈ children, n.Within c := by
  constructor
  · rintro (_ | ⟨hc, h⟩)
    · exact .inl rfl
    · exact .inr ⟨_, hc, h⟩
  · rintro (rfl | ⟨c, hc, h⟩)
    · exact .refl
    · exact .child hc h

/-- What stands inside of a node of another kind stands inside of one of its children. -/
theorem within_node_iff_of_ne {kind kind' : NodeKind} {children children' : List (Tree α)}
    (h : kind ≠ kind') :
    (node kind children).Within (node kind' children') ↔
      ∃ c ∈ children', (node kind children).Within c := by
  rw [within_node_iff, or_iff_right]
  intro heq
  exact h (node.inj heq).1

theorem Within.trans {m : Tree α} (hm : m.Within n) (hn : n.Within t) : m.Within t := by
  induction hn with
  | refl => exact hm
  | child hc _ ih => exact .child hc ih

/-- The leaves of what stands inside are a stretch of all leaves. -/
theorem Within.exists_leaves (h : n.Within t) :
    ∃ before after, t.leaves = before ++ n.leaves ++ after := by
  induction h with
  | refl => exact ⟨[], [], by simp⟩
  | @child kind children c hc _ ih =>
    obtain ⟨before, after, hc⟩ := exists_leavesAll_of_mem hc
    obtain ⟨before', after', ih⟩ := ih
    exact ⟨before ++ before', after' ++ after, by rw [leaves, hc, ih]; simp⟩

theorem Within.mem_leaves {a : α} (h : n.Within t) (ha : a ∈ n.leaves) : a ∈ t.leaves := by
  obtain ⟨before, after, heq⟩ := h.exists_leaves
  rw [heq]
  exact List.mem_append_left _ (List.mem_append_right _ ha)

end Within

theorem Sound.within {n t : Tree Token} (h : t.Sound) (hn : n.Within t) : n.Sound := by
  induction hn with
  | refl => exact h
  | child hc _ ih => exact ih (h.inner _ hc)

/-! ## What expressions list -/

section Listing

variable {β : Type} (f : Expr → List β)

/-- What is listed of the expression that a tree is; of other trees, nothing is. -/
def listing (t : Tree Token) : List β := ((Expr.ofTree? t).map f).getD []

theorem flatMap_ofTrees (ts : List (Tree Token)) :
    (Expr.ofTrees ts).flatMap f = ts.flatMap (listing f) := by
  induction ts with
  | nil => rfl
  | cons t ts ih => cases h : Expr.ofTree? t <;> simp [Expr.ofTrees, listing, h, ih]

theorem length_ofTrees_le (ts : List (Tree Token)) :
    (Expr.ofTrees ts).length ≤ (ts.filterMap kind?).length := by
  induction ts with
  | nil => simp [Expr.ofTrees]
  | cons t ts ih =>
    cases t with
    | leaf t =>
      rw [List.filterMap_cons_none (by rfl), Expr.ofTrees]
      exact ih
    | node kind children =>
      rw [List.filterMap_cons_some (by rfl), Expr.ofTrees]
      split
      · exact Nat.succ_le_succ ih
      · exact Nat.le_succ_of_le ih

/-- The first expression among the children of a field, a quantifier or a capture is the only
one. -/
theorem Sound.listing_head {kind : NodeKind} {children : List (Tree Token)}
    (h : (node kind children).Sound)
    (hkind : kind = .field ∨ kind = .quantifier ∨ kind = .capture) :
    ((Expr.ofTrees children).head?.map f).getD [] = children.flatMap (listing f) := by
  have hlength : (Expr.ofTrees children).length ≤ 1 := by
    refine Nat.le_trans (length_ofTrees_le children) ?_
    rw [← nodes_bareAll]
    exact Form.length_nodes_le hkind h.form
  rw [← flatMap_ofTrees]
  cases hes : Expr.ofTrees children with
  | nil => rfl
  | cons e es =>
    rw [hes, List.length_cons] at hlength
    obtain rfl : es = [] := List.eq_nil_of_length_eq_zero (by omega)
    simp

/-- The children of a flat node are tokens. -/
theorem Sound.exists_leaf_of_isFlat {kind : NodeKind} {children : List (Tree Token)}
    (h : (node kind children).Sound) (hkind : Form.IsFlat kind) :
    ∀ c ∈ children, ∃ t, c = leaf t := by
  have hnodes := Form.nodes_of_isFlat hkind h.form
  rw [nodes_bareAll, List.filterMap_eq_nil_iff] at hnodes
  intro c hc
  cases c with
  | leaf t => exact ⟨t, rfl⟩
  | node kind children => exact absurd (hnodes _ hc) (by simp [kind?])

/-- The nodes in a predicate are flat. -/
theorem Sound.isFlat_of_predicate {kind : NodeKind} {inner children : List (Tree Token)}
    (h : (node .predicate children).Sound) (hc : node kind inner ∈ children) :
    Form.IsFlat kind := by
  refine Form.isFlat_of_mem_predicate h.form kind ?_
  rw [nodes_bareAll]
  exact List.mem_filterMap.mpr ⟨_, hc, rfl⟩

end Listing

end Tree

namespace Document

variable {source : String} {t : Tree Token}

theorem sound_of_mem_children (ht : t ∈ (parse source).tree.children) : t.Sound := by
  have h : ∀ b ∈ (Tree.node .root (parse source).tree.children).bare, b.Formed :=
    formed_parse source
  exact Tree.Sound.of_formed h t ht

/-- What stands inside of the tree of a text, the tree itself apart, stands inside of a pattern. -/
theorem exists_of_within {kind : NodeKind} {children : List (Tree Token)} (hkind : kind ≠ .root)
    (h : (Tree.node kind children).Within (parse source).tree) :
    ∃ t ∈ (parse source).tree.children, (Tree.node kind children).Within t :=
  (Tree.within_node_iff_of_ne hkind).mp h

theorem sound_of_within {kind : NodeKind} {children : List (Tree Token)} (hkind : kind ≠ .root)
    (h : (Tree.node kind children).Within (parse source).tree) :
    (Tree.node kind children).Sound := by
  obtain ⟨t, ht, hwithin⟩ := exists_of_within hkind h
  exact (sound_of_mem_children ht).within hwithin

/-- The leaves of the patterns are the tokens of the text. -/
theorem leavesAll_children (source : String) :
    Tree.leavesAll (parse source).tree.children = tokenize source :=
  Tree.leaves_weaveRoot _ _

end Document

end Concord.Query
