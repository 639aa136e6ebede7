import Concord.Proofs.Query.Accessors
import Concord.Proofs.Query.Form

/-!
# Nodes inside of nodes

What the forms say of the nodes among the children of a node, carried over to the tree of a text,
where trivia stand between.

* `Form.eachLetter_children` — no node has a root inside of it.
* `Form.nodes_of_isFlat`, `Form.isFlat_of_mem_predicate`, `Form.length_nodes_le` — which nodes hold
  tokens only, what a predicate holds, and which nodes hold at most one node.
* `Tree.Sound t` says that the nodes of `t` are of their forms; `Tree.Sound.induct` is induction on
  such trees.
* `Tree.Sound.exists_predicate` — every predicate node can be read as a predicate.
-/

set_option autoImplicit false

open Computability

namespace Concord.Query

/-! ## Nodes among the children -/

/-- The kind of a child that is a node. -/
def ChildKind.node? : ChildKind → Option NodeKind
  | token _ => none
  | node k => some k

/-- The kind of a node. -/
def Tree.kind? {α : Type} : Tree α → Option NodeKind
  | leaf _ => none
  | node kind _ => some kind

namespace Form

/-- The kinds of nodes in a word. -/
def nodes (w : List ChildKind) : List NodeKind := w.filterMap ChildKind.node?

section Letters

variable {p : ChildKind → Prop}

theorem eachLetter_token {k : TokenKind} (h : p (.token k)) : EachLetter p (token k) :=
  eachLetter_singleton (by simpa using h)

theorem eachLetter_node {k : NodeKind} (h : p (.node k)) : EachLetter p (node k) :=
  eachLetter_singleton (by simpa using h)

theorem eachLetter_anyToken (h : ∀ k, p (.token k)) : EachLetter p anyToken := by
  rintro w ⟨k, rfl⟩
  simpa using h k

theorem eachLetter_anyNode (h : ∀ k ≠ .root, p (.node k)) : EachLetter p anyNode := by
  rintro w ⟨k, hk, rfl⟩
  simpa using h k hk

theorem eachLetter_argument (htoken : ∀ k, p (.token k)) (hstr : p (.node .str))
    (herror : p (.node .error)) : EachLetter p argument :=
  ((((eachLetter_token (htoken _)).add (eachLetter_token (htoken _))).add
    (eachLetter_token (htoken _))).add (eachLetter_node hstr)).add (eachLetter_node herror)

/-- No form has a root in it. -/
theorem eachLetter_children (htoken : ∀ k, p (.token k)) (hnode : ∀ k ≠ .root, p (.node k))
    (kind : NodeKind) : EachLetter p (children kind) := by
  have one (k : TokenKind) : EachLetter p (token k) := eachLetter_token (htoken k)
  have optional (k : TokenKind) : EachLetter p (1 + token k) := eachLetter_one.add (one k)
  have any : EachLetter p anyNode := eachLetter_anyNode hnode
  have argument : EachLetter p argument :=
    eachLetter_argument htoken (hnode _ NodeKind.noConfusion) (hnode _ NodeKind.noConfusion)
  have head : EachLetter p
      ((token .ident + token .underscore) * (1 + token .slash * (1 + token .ident))) :=
    ((one _).add (one _)).mul (eachLetter_one.add ((one _).mul (optional _)))
  cases kind with
  | root => exact any.kstar
  | tree => exact (one _).mul (((eachLetter_one.add head).mul any.kstar).mul (optional _))
  | group => exact (one _).mul ((any.mul any.kstar).mul (optional _))
  | predicate => exact (one _).mul (((one _).mul argument.kstar).mul (optional _))
  | alternation => exact (one _).mul (any.kstar.mul (optional _))
  | str => exact (one _).mul ((optional _).mul (optional _))
  | wildcard => exact one _
  | anchor => exact one _
  | negatedField => exact (one _).mul (optional _)
  | field => exact (one _).mul ((one _).mul (eachLetter_one.add any))
  | quantifier => exact any.mul (((one _).add (one _)).add (one _))
  | capture => exact any.mul ((one _).mul (one _).kstar)
  | error => exact (eachLetter_anyToken htoken).mul (eachLetter_anyToken htoken).kstar

end Letters

theorem mem_nodes {w : List ChildKind} {k : NodeKind} : k ∈ nodes w ↔ .node k ∈ w := by
  rw [nodes, List.mem_filterMap]
  constructor
  · rintro ⟨_ | _, hc, hk⟩
    · contradiction
    · rwa [← Option.some_inj.mp hk]
  · exact fun h ↦ ⟨_, h, rfl⟩

/-- Words of tokens have no nodes. -/
theorem nodes_eq_nil {L : Language ChildKind} (h : EachLetter (·.node? = none) L)
    {w : List ChildKind} (hw : w ∈ L) : nodes w = [] :=
  List.filterMap_eq_nil_iff.mpr (h w hw)

/-- The nodes that have only tokens as children. -/
def IsFlat (kind : NodeKind) : Prop :=
  kind = .str ∨ kind = .wildcard ∨ kind = .anchor ∨ kind = .negatedField ∨ kind = .error

theorem nodes_of_isFlat {kind : NodeKind} (h : IsFlat kind) {w : List ChildKind}
    (hw : w ∈ children kind) : nodes w = [] := by
  have one (k : TokenKind) : EachLetter (·.node? = none) (token k) := eachLetter_token rfl
  have optional (k : TokenKind) : EachLetter (·.node? = none) (1 + token k) :=
    eachLetter_one.add (one k)
  have any : EachLetter (·.node? = none) anyToken := eachLetter_anyToken fun _ ↦ rfl
  refine nodes_eq_nil ?_ hw
  obtain rfl | rfl | rfl | rfl | rfl := h
  · exact (one _).mul ((optional _).mul (optional _))
  · exact one _
  · exact one _
  · exact (one _).mul (optional _)
  · exact any.mul any.kstar

/-- The nodes in a predicate have only tokens as children. -/
theorem isFlat_of_mem_predicate {w : List ChildKind} (hw : w ∈ children .predicate) :
    ∀ k ∈ nodes w, IsFlat k := by
  have one (k : TokenKind) : EachLetter (fun c ↦ ∀ k ∈ c.node?, IsFlat k) (token k) :=
    eachLetter_token (by simp [ChildKind.node?])
  have argument : EachLetter (fun c ↦ ∀ k ∈ c.node?, IsFlat k) argument :=
    eachLetter_argument (by simp [ChildKind.node?]) (by simp [ChildKind.node?, IsFlat])
      (by simp [ChildKind.node?, IsFlat])
  have h : EachLetter (fun c ↦ ∀ k ∈ c.node?, IsFlat k) (children .predicate) :=
    (one _).mul (((one _).mul argument.kstar).mul (eachLetter_one.add (one _)))
  exact fun k hk ↦ h w hw _ (mem_nodes.mp hk) k rfl

/-- A field, a quantifier and a capture have at most one node as a child. -/
theorem length_nodes_le {kind : NodeKind}
    (h : kind = .field ∨ kind = .quantifier ∨ kind = .capture) {w : List ChildKind}
    (hw : w ∈ children kind) : (nodes w).length ≤ 1 := by
  have one (k : TokenKind) : EachLetter (·.node? = none) (token k) := eachLetter_token rfl
  have behind {u v : List ChildKind} {L : Language ChildKind} (hu : u ∈ anyNode) (hv : v ∈ L)
      (hL : EachLetter (·.node? = none) L) : (nodes (u ++ v)).length ≤ 1 := by
    obtain ⟨k, -, rfl⟩ := hu
    rw [nodes, List.filterMap_append, ← nodes, ← nodes, nodes_eq_nil hL hv, List.append_nil]
    exact Nat.le_refl 1
  obtain rfl | rfl | rfl := h
  · obtain ⟨_, rfl, _, ⟨_, rfl, v, hv, rfl⟩, rfl⟩ := hw
    rcases (Language.mem_add _ _ _).mp hv with rfl | ⟨k, -, rfl⟩
    · exact Nat.zero_le 1
    · exact Nat.le_refl 1
  · obtain ⟨u, hu, v, hv, rfl⟩ := hw
    exact behind hu hv (((one _).add (one _)).add (one _))
  · obtain ⟨u, hu, v, hv, rfl⟩ := hw
    exact behind hu hv ((one _).mul (one _).kstar)

end Form

/-! ## Nodes of syntax trees -/

namespace Tree

theorem mem_bareAll {b : Tree Lexeme} {ts : List (Tree Token)} :
    b ∈ bareAll ts ↔ ∃ t ∈ ts, b ∈ bare t := by
  induction ts with
  | nil => simp [bareAll]
  | cons t ts ih => simp [bareAll, ih]

/-- Trivia are no nodes. -/
theorem nodes_bareAll (ts : List (Tree Token)) :
    Form.nodes ((bareAll ts).map childKind) = ts.filterMap kind? := by
  induction ts with
  | nil => rfl
  | cons t ts ih =>
    rw [bareAll, List.map_append, Form.nodes, List.filterMap_append, ← Form.nodes, ← Form.nodes, ih]
    cases t with
    | leaf t =>
      rw [bare, List.filterMap_cons_none (by rfl)]
      split <;> rfl
    | node kind children => rfl

/-- A tree inside of the tree of a text: its nodes are of their forms, and it is not the root. -/
structure Sound (t : Tree Token) : Prop where
  formed : ∀ b ∈ t.bare, b.Formed
  kind_ne : t.kind? ≠ some .root

namespace Sound

variable {kind : NodeKind} {children : List (Tree Token)}

theorem form_of_formed (h : ∀ b ∈ bare (node kind children), b.Formed) :
    (bareAll children).map childKind ∈ Form.children kind ∧
      ∀ b ∈ bareAll children, b.Formed := by
  cases h _ (List.mem_singleton.mpr rfl) with
  | node hform hchildren => exact ⟨hform, hchildren⟩

/-- What is inside of a node of its form is sound. -/
theorem of_formed (h : ∀ b ∈ bare (node kind children), b.Formed) : ∀ c ∈ children, c.Sound := by
  obtain ⟨hform, hchildren⟩ := form_of_formed h
  refine fun c hc ↦ ⟨fun b hb ↦ hchildren b (mem_bareAll.mpr ⟨c, hc, hb⟩), fun hkind ↦ ?_⟩
  have hroot : .root ∈ children.filterMap kind? := List.mem_filterMap.mpr ⟨c, hc, hkind⟩
  rw [← nodes_bareAll, Form.mem_nodes] at hroot
  exact Form.eachLetter_children (p := (· ≠ .node .root)) (by simp) (by simp) kind _ hform _ hroot
    rfl

theorem form (h : (node kind children).Sound) :
    (bareAll children).map childKind ∈ Form.children kind :=
  (form_of_formed h.formed).1

theorem inner (h : (node kind children).Sound) : ∀ c ∈ children, c.Sound := of_formed h.formed

/-- What holds of leaves, and of a node if it holds of the children. -/
theorem induct {motive : Tree Token → Prop} (leaf : ∀ t, motive (.leaf t))
    (node : ∀ kind children, (Tree.node kind children).Sound →
      (∀ c ∈ children, motive c) → motive (.node kind children)) :
    (t : Tree Token) → t.Sound → motive t
  | .leaf t, _ => leaf t
  | .node kind children, h =>
    node kind children h fun c hc ↦ induct leaf node c (h.inner c hc)

end Sound

/-! ## Predicate nodes -/

theorem mem_leafChildren {α : Type} {a : α} {ts : List (Tree α)} :
    a ∈ leafChildren ts ↔ leaf a ∈ ts := by
  induction ts with
  | nil => simp [leafChildren]
  | cons t ts ih => cases t <;> simp [leafChildren, ih]

theorem leafChildren_sublist {α : Type} (ts : List (Tree α)) :
    (leafChildren ts).Sublist (leavesAll ts) := by
  induction ts with
  | nil => exact .slnil
  | cons t ts ih =>
    cases t with
    | leaf a => exact ih.cons_cons a
    | node kind children => exact ih.trans (List.sublist_append_right _ _)

/-- A predicate node has a name. -/
theorem Sound.exists_name {children : List (Tree Token)} (h : (node .predicate children).Sound) :
    ∃ t, tokenOf? (· = .predicateName) (leafChildren children) = some t := by
  obtain ⟨_, rfl, _, ⟨_, ⟨_, rfl, u, -, rfl⟩, v, -, rfl⟩, hword⟩ := h.form
  have hname : .token .predicateName ∈ (bareAll children).map childKind := by
    rw [← hword]
    exact List.mem_cons_of_mem _ List.mem_cons_self
  obtain ⟨_ | _, hl, hkind⟩ := List.mem_map.mp hname
  · rw [← mem_leafChildren, leafChildren_bareAll] at hl
    have hfind := predicateNameOf?_eq (leafChildren children)
    cases htoken : tokenOf? (· = .predicateName) (leafChildren children) with
    | some t => exact ⟨t, rfl⟩
    | none =>
      rw [htoken, Option.map_none, eq_comm, Option.map_eq_none_iff, List.find?_eq_none] at hfind
      exact absurd (by simpa [childKind] using hkind) (hfind _ hl)
  · contradiction

theorem Sound.exists_predicate {q : Tree Token} (h : q.Sound)
    (hkind : q.kind? = some .predicate) : ∃ p, Predicate.ofTree? q = some p := by
  cases q with
  | leaf t => contradiction
  | node kind children =>
    obtain rfl := Option.some_inj.mp hkind
    obtain ⟨t, ht⟩ := h.exists_name
    exact ⟨_, by rw [Predicate.ofTree?, ht, Option.map_some]⟩

/-- A predicate node has a leaf. -/
theorem Sound.exists_first? {q : Tree Token} (h : q.Sound)
    (hkind : q.kind? = some .predicate) : ∃ t, q.first? = some t := by
  cases q with
  | leaf t => contradiction
  | node kind children =>
    obtain rfl := Option.some_inj.mp hkind
    obtain ⟨t, ht⟩ := h.exists_name
    have hmem := (leafChildren_sublist children).subset (List.mem_of_find?_eq_some ht)
    rw [first?_eq_head?, leaves]
    exact ⟨_, List.head?_eq_some_head (List.ne_nil_of_mem hmem)⟩

end Tree

end Concord.Query
