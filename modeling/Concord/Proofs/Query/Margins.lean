import Concord.Proofs.Query.Ranges

/-!
# Nodes and the trivia between them

A node begins and ends with a token that means something, so its range has no blanks and no comments
at its margins; and what stands between two nodes side by side stands in the node around them.

* `Span.Trim` says that a stretch begins and ends with significant tokens of the text.
  `Document.trim_span` says it of every node, and with that of patterns, captures and clauses.
* `Tree.Trim.filter_leaves` — the first and the last token of a node are its first and its last
  significant one.
* `Document.exists_between` — the tokens between two nodes with one parent.
* `Document.parse_trim` puts these together, for every text.
-/

set_option autoImplicit false

namespace Concord

/-- The stretch begins where a significant token of the text begins, and ends where one ends. -/
structure Span.Trim (s : Span) (source : String) : Prop where
  begins : ∃ t ∈ Query.tokenize source, t.kind.isTrivia = false ∧ t.span.start = s.start
  ends : ∃ t ∈ Query.tokenize source, t.kind.isTrivia = false ∧ t.span.stop = s.stop

namespace Query

/-! ## First and last tokens of nodes -/

namespace Tree

/-- The first significant token of a tree. -/
def firstSignificant? (t : Tree Token) : Option Token := t.leaves.find? (!·.kind.isTrivia)

/-- The last significant token of a tree. -/
def lastSignificant? (t : Tree Token) : Option Token :=
  (t.leaves.filter (!·.kind.isTrivia)).getLast?

variable {kind : NodeKind} {children : List (Tree Token)}

/-- A node begins and ends with significant tokens, and so these are its first and its last. -/
theorem Trim.exists_ends (h : (Tree.node kind children).Trim) :
    ∃ first last, (Tree.node kind children).leaves.head? = some first ∧
      (Tree.node kind children).leaves.getLast? = some last ∧
      first.kind.isTrivia = false ∧ last.kind.isTrivia = false ∧
      (Tree.node kind children).firstSignificant? = some first ∧
      (Tree.node kind children).lastSignificant? = some last := by
  obtain _ | ⟨⟨first, hfirst, hsig⟩, ⟨last, hlast, hsig'⟩, -⟩ := h
  rw [firstOf?_eq_head?] at hfirst
  rw [lastOf?_eq_getLast?] at hlast
  refine ⟨first, last, hfirst, hlast, hsig, hsig', ?_, ?_⟩
  · obtain ⟨rest, hrest⟩ := List.head?_eq_some_iff.mp hfirst
    rw [firstSignificant?, leaves, hrest, List.find?_cons_of_pos (by simp [hsig])]
  · obtain ⟨front, hfront⟩ := List.getLast?_eq_some_iff.mp hlast
    rw [lastSignificant?, leaves, hfront, List.filter_append,
      List.filter_cons_of_pos (by simp [hsig']), List.filter_nil, List.getLast?_append,
      List.getLast?_singleton, Option.some_or]

/-- The stretch of a node whose tokens are those of a text. -/
theorem Trim.span {source : String} (h : (Tree.node kind children).Trim)
    (hleaves : ∀ t ∈ (Tree.node kind children).leaves, t ∈ tokenize source) :
    (Tree.node kind children).span.Trim source := by
  obtain ⟨first, last, hfirst, hlast, hsig, hsig', -⟩ := h.exists_ends
  refine ⟨⟨first, hleaves _ (List.mem_of_head? hfirst), hsig, ?_⟩,
    ⟨last, hleaves _ (List.mem_of_getLast? hlast), hsig', ?_⟩⟩
  · rw [Tree.span, first?_eq_head?, hfirst]
    rfl
  · rw [Tree.span, last?_eq_getLast?, hlast]
    rfl

end Tree

namespace Document

variable {source : String} {kind : NodeKind} {children : List (Tree Token)}

/-- A tree inside of a node of a text stands inside of a pattern. -/
theorem exists_of_mem_of_within {c : Tree Token} (hc : c ∈ children)
    (h : (Tree.node kind children).Within (parse source).tree) :
    ∃ t ∈ (parse source).tree.children, c.Within t := by
  rcases Tree.within_node_iff.mp h with heq | ⟨t, ht, hwithin⟩
  · obtain ⟨-, rfl⟩ := Tree.node.inj heq
    exact ⟨c, hc, .refl⟩
  · exact ⟨t, ht, (Tree.Within.child hc .refl).trans hwithin⟩

/-- **The range of a node is trim.** -/
theorem trim_span {t : Tree Token} (ht : t ∈ (parse source).tree.children)
    (h : (Tree.node kind children).Within t) :
    (Tree.node kind children).span.Trim source := by
  refine ((trim_of_mem_children ht).within h).span fun a ha ↦ ?_
  rw [← leavesAll_children source]
  exact (Tree.leaves_sublist_of_mem ht).subset (h.mem_leaves ha)

/-- The ranges of a pattern and of what it lists are trim. -/
theorem trim_of_mem_patterns {p : Pattern} (hp : p ∈ (parse source).patterns) :
    p.span.Trim source ∧ (∀ c ∈ p.captures, c.span.Trim source) ∧
      ∀ c ∈ p.clauses, c.span.Trim source := by
  rw [patterns_parse, List.mem_map] at hp
  obtain ⟨e, he, rfl⟩ := hp
  obtain ⟨t, ht, he⟩ := List.mem_filterMap.mp he
  have hsound := sound_of_mem_children ht
  refine ⟨?_, fun c hc ↦ ?_, fun c hc ↦ ?_⟩
  · cases t with
    | leaf a => simp [Expr.ofTree?] at he
    | node kind children =>
      rw [Pattern.ofExpr, Tree.span_of_ofTree? he]
      exact trim_span ht .refl
  · have hlisted : c ∈ t.listing Expr.captures := by rwa [Tree.listing, he]
    obtain ⟨children, hwithin, hpair⟩ := (hsound.mem_captures_iff c).mp hlisted
    rw [(Tree.mem_pairs_iff.mp hpair).1]
    exact trim_span ht hwithin
  · obtain ⟨r, hr, rfl⟩ := List.mem_map.mp hc
    have hlisted : r ∈ t.predicates := by rwa [Tree.predicates, he]
    obtain ⟨q, hq, hread⟩ := List.mem_filterMap.mp (hsound.predicates_perm.subset hlisted)
    have hwithin := hsound.within_of_mem_held q hq
    have hpredicate := (hsound.of_mem_held q hq).2
    rw [Clause.ofPredicate, Tree.span_of_listed hread]
    obtain ⟨parent, _ | ⟨kind, children⟩⟩ := q
    · contradiction
    · exact trim_span ht hwithin

/-- **What stands between two nodes** with one parent, from the last significant token of the first
to the first significant token of the second, are the tokens of the trees between them. -/
theorem exists_between {before between after : List (Tree Token)} {p q : Tree Token}
    (h : (Tree.node kind (before ++ p :: (between ++ q :: after))).Within (parse source).tree)
    (hp : p.kind? ≠ none) (hq : q.kind? ≠ none) :
    ∃ front last first back,
      tokenize source = front ++ last :: (Tree.leavesAll between ++ first :: back) ∧
        p.lastSignificant? = some last ∧ q.firstSignificant? = some first := by
  have trim {c : Tree Token} (hc : c ∈ before ++ p :: (between ++ q :: after)) : c.Trim := by
    obtain ⟨t, ht, hwithin⟩ := exists_of_mem_of_within hc h
    exact (trim_of_mem_children ht).within hwithin
  have htrim : p.Trim := trim (by simp)
  have htrim' : q.Trim := trim (by simp)
  obtain ⟨front, back, htokens⟩ := h.exists_leaves
  have hall : (parse source).tree.leaves = tokenize source := Tree.leaves_weaveRoot _ _
  cases p with
  | leaf a => exact absurd rfl hp
  | node pkind pchildren =>
    cases q with
    | leaf a => exact absurd rfl hq
    | node qkind qchildren =>
      obtain ⟨-, last, -, hlast, -, -, -, hlast'⟩ := htrim.exists_ends
      obtain ⟨first, -, hfirst, -, -, -, hfirst', -⟩ := htrim'.exists_ends
      obtain ⟨pfront, hpfront⟩ := List.getLast?_eq_some_iff.mp hlast
      obtain ⟨qback, hqback⟩ := List.head?_eq_some_iff.mp hfirst
      refine ⟨front ++ Tree.leavesAll before ++ pfront, last, first,
        qback ++ Tree.leavesAll after ++ back, ?_, hlast', hfirst'⟩
      rw [← hall, htokens, Tree.leaves, Tree.leavesAll_append, Tree.leavesAll,
        Tree.leavesAll_append, Tree.leavesAll, hpfront, hqback]
      simp

/-- Trees that are no nodes are leaves. -/
theorem eq_map_leaf_of_kind? {ts : List (Tree Token)} (h : ∀ c ∈ ts, c.kind? = none) :
    ts = (Tree.leavesAll ts).map .leaf := by
  induction ts with
  | nil => rfl
  | cons t ts ih =>
    rw [List.forall_mem_cons] at h
    cases t with
    | leaf a => rw [Tree.leavesAll, Tree.leaves, List.singleton_append, List.map_cons, ← ih h.2]
    | node kind children => exact absurd h.1 (Option.some_ne_none kind)

/-- **Nodes begin and end with tokens that mean something**, whatever the text is.  Every node but
the root has a first and a last token, and these are no blanks, line breaks or comments; so the
ranges of all nodes, strings among them, and of the patterns, captures and clauses that are read off
them begin and end with such tokens.  And all that stands in the text between two nodes of one
parent stands in the trees between them; where these are no nodes, it stands right in the parent. -/
theorem parse_trim (source : String) :
    (∀ t ∈ (parse source).tree.children, ∀ kind children,
        (Tree.node kind children).Within t →
          (∃ first last, (Tree.node kind children).leaves.head? = some first ∧
            (Tree.node kind children).leaves.getLast? = some last ∧
            first.kind.isTrivia = false ∧ last.kind.isTrivia = false) ∧
          (Tree.node kind children).span.Trim source) ∧
      (∀ p ∈ (parse source).patterns, p.span.Trim source ∧
        (∀ c ∈ p.captures, c.span.Trim source) ∧ ∀ c ∈ p.clauses, c.span.Trim source) ∧
      ∀ kind before p between q after,
        (Tree.node kind (before ++ p :: (between ++ q :: after))).Within (parse source).tree →
          p.kind? ≠ none → q.kind? ≠ none →
          (∃ front last first back,
            tokenize source = front ++ last :: (Tree.leavesAll between ++ first :: back) ∧
              p.lastSignificant? = some last ∧ q.firstSignificant? = some first) ∧
          ((∀ c ∈ between, c.kind? = none) → between = (Tree.leavesAll between).map .leaf) := by
  refine ⟨fun t ht kind children h ↦ ⟨?_, trim_span ht h⟩, fun p ↦ trim_of_mem_patterns, ?_⟩
  · obtain ⟨first, last, hfirst, hlast, hsig, hsig', -⟩ :=
      ((trim_of_mem_children ht).within h).exists_ends
    exact ⟨first, last, hfirst, hlast, hsig, hsig'⟩
  · intro kind before p between q after h hp hq
    exact ⟨exists_between h hp hq, eq_map_leaf_of_kind?⟩

/-- A comment stands in the root, between two patterns of it, and so do the blanks around it. -/
example : (parse "(a) ; c\n (b) ").tree.children.map (fun t ↦ (t.kind?, t.span)) =
    [(some .tree, ⟨0, 3⟩), (none, ⟨3, 4⟩), (none, ⟨4, 7⟩), (none, ⟨7, 8⟩), (none, ⟨8, 9⟩),
      (some .tree, ⟨9, 12⟩), (none, ⟨12, 13⟩)] := by
  decide +kernel

end Document

end Query

end Concord
