import Concord.Proofs.Query.Reading
import Concord.Proofs.Query.Shape

/-!
# What trees show

`Shows ts shapes predicates` says what the accessors find in the trees that the productions build:
these expressions, these predicates, and no token beside them.

* `Tree.shapes_tree` and its like say what they find in a node, in terms of its children.
* `Shows.around` — tokens around trees do not change what the trees show, so each bracketed phrase
  shows what stands between its brackets.
* `shows_tree` and its like say it of the nodes that are built for a phrase without errors.
-/

set_option autoImplicit false

namespace Concord.Query

/-! ## What the accessors find -/

namespace Tree

/-- The shapes of the arguments among some trees. -/
def argumentShapes (ts : List (Tree Lexeme)) : List ClauseArg :=
  ((mapAll Lexeme.anywhere ts).filterMap Argument.ofTree?).map Argument.shape

theorem argumentShapes_append (ts us : List (Tree Lexeme)) :
    argumentShapes (ts ++ us) = argumentShapes ts ++ argumentShapes us := by
  simp only [argumentShapes, mapAll_append, List.filterMap_append, List.map_append]

/-- The direct children of a node, as its accessors see them. -/
def tokensOf (children : List (Tree Lexeme)) : List Token :=
  (leafChildren children).map Lexeme.anywhere

variable (children : List (Tree Lexeme))

theorem shapes_tree :
    shapes [.node .tree children] =
      [.tree (nodeTypeOf? (tokensOf children)) (subtypeOf? (tokensOf children)) (shapes children)
        (predicateShapes children)] := by
  rw [shapes_singleton, map, Expr.ofTree?, Option.map_some, Expr.shape, Expr.shapeAll_eq_map,
    leafChildren_mapAll]
  rfl

theorem shapes_group :
    shapes [.node .group children] = [.group (shapes children) (predicateShapes children)] := by
  rw [shapes_singleton, map, Expr.ofTree?, Option.map_some, Expr.shape, Expr.shapeAll_eq_map]
  rfl

theorem shapes_alternation :
    shapes [.node .alternation children] = [.alternation (shapes children)] := by
  rw [shapes_singleton, map, Expr.ofTree?, Option.map_some, Expr.shape, Expr.shapeAll_eq_map]
  rfl

theorem shapes_field :
    shapes [.node .field children] =
      [.field (fieldNameOf? (tokensOf children)) (shapes children).head?] := by
  rw [shapes_singleton, map, Expr.ofTree?, Option.map_some, Expr.shape_field, leafChildren_mapAll,
    ← List.head?_map]
  rfl

theorem shapes_negatedField :
    shapes [.node .negatedField children] =
      [.negatedField (fieldNameOf? (tokensOf children))] := by
  rw [shapes_singleton, map, Expr.ofTree?, Option.map_some, Expr.shape, leafChildren_mapAll]
  rfl

theorem shapes_quantifier :
    shapes [.node .quantifier children] =
      [.quantified ((tokenOf? TokenKind.isQuantifier (tokensOf children)).map Token.string)
        (shapes children).head?] := by
  rw [shapes_singleton, map, Expr.ofTree?, Option.map_some, Expr.shape_quantified,
    leafChildren_mapAll, ← List.head?_map]
  rfl

theorem shapes_capture :
    shapes [.node .capture children] =
      [.captured (captureNamesOf (tokensOf children)) (shapes children).head?] := by
  rw [shapes_singleton, map, Expr.ofTree?, Option.map_some, Expr.shape_captured,
    leafChildren_mapAll, ← List.head?_map]
  rfl

theorem predicateShapes_predicate :
    predicateShapes [.node .predicate children] =
      (((tokenOf? (· = .predicateName) (tokensOf children)).map Token.name).map fun name ↦
        ⟨name, argumentShapes children⟩).toList := by
  rw [predicateShapes_singleton, map, Predicate.shape_ofTree?, leafChildren_mapAll]
  rfl

/-- A leaf is no expression. -/
theorem shapes_map_leaf (ls : List Lexeme) : shapes (ls.map .leaf) = [] := by
  induction ls with
  | nil => rfl
  | cons l ls ih => exact ih

theorem predicateShapes_map_leaf (ls : List Lexeme) : predicateShapes (ls.map .leaf) = [] := by
  induction ls with
  | nil => rfl
  | cons l ls ih => exact ih

end Tree

/-! ## What trees show -/

/-- The trees show these expressions and predicates, and none of them is a token. -/
structure Shows (ts : List (Tree Lexeme)) (shapes : List Shape)
    (predicates : List PredicateShape) : Prop where
  shapes : Tree.shapes ts = shapes
  predicates : Tree.predicateShapes ts = predicates
  leaves : Tree.leafChildren ts = []

namespace Shows

theorem nil : Shows [] [] [] := ⟨rfl, rfl, rfl⟩

theorem append {ts us : List (Tree Lexeme)} {ss ss' : List Shape} {ps ps' : List PredicateShape}
    (ht : Shows ts ss ps) (hu : Shows us ss' ps') :
    Shows (ts ++ us) (ss ++ ss') (ps ++ ps') := by
  refine ⟨?_, ?_, ?_⟩
  · rw [Tree.shapes_append, ht.shapes, hu.shapes]
  · rw [Tree.predicateShapes_append, ht.predicates, hu.predicates]
  · rw [Tree.leafChildren_append, ht.leaves, hu.leaves, List.append_nil]

/-- A node that is no predicate shows an expression. -/
theorem node {kind : NodeKind} {children : List (Tree Lexeme)} {s : Shape}
    (hkind : kind ≠ .predicate) (h : Tree.shapes [.node kind children] = [s]) :
    Shows [.node kind children] [s] [] := by
  refine ⟨h, ?_, rfl⟩
  cases kind
  case predicate => contradiction
  all_goals rfl

variable {ts : List (Tree Lexeme)} {ss : List Shape} {ps : List PredicateShape}

/-- Tokens around trees do not change what the trees show. -/
theorem around (h : Shows ts ss ps) (ls ms : List Lexeme) :
    Tree.shapes (ls.map .leaf ++ ts ++ ms.map .leaf) = ss ∧
      Tree.predicateShapes (ls.map .leaf ++ ts ++ ms.map .leaf) = ps ∧
      Tree.leafChildren (ls.map .leaf ++ ts ++ ms.map .leaf) = ls ++ ms := by
  refine ⟨?_, ?_, ?_⟩
  · rw [Tree.shapes_append, Tree.shapes_append, Tree.shapes_map_leaf, Tree.shapes_map_leaf,
      h.shapes, List.nil_append, List.append_nil]
  · rw [Tree.predicateShapes_append, Tree.predicateShapes_append, Tree.predicateShapes_map_leaf,
      Tree.predicateShapes_map_leaf, h.predicates, List.nil_append, List.append_nil]
  · rw [Tree.leafChildren_append, Tree.leafChildren_append, Tree.leafChildren_map_leaf,
      Tree.leafChildren_map_leaf, h.leaves, List.append_nil]

end Shows

/-! ### Nodes -/

section Nodes

open Production (SubtypeForm)

variable {ts : List (Tree Lexeme)} {ss : List Shape} {ps : List PredicateShape} {o n c : Lexeme}

theorem shows_tree {sub : List Lexeme} (ho : o.kind = .parenOpen)
    (hn : n.kind = .ident ∨ n.kind = .underscore) (hsub : SubtypeForm sub)
    (hc : c.kind = .parenClose) (h : Shows ts ss ps) :
    Shows [.node .tree (.leaf o :: (.leaf n :: (sub.map .leaf) ++ ts ++ [.leaf c]))]
      [.tree (some n.string) (sub.getLast?.map Lexeme.string) ss ps] [] := by
  obtain ⟨hshapes, hpredicates, hleaves⟩ := h.around (o :: n :: sub) [c]
  have htype : nodeTypeOf? (((o :: n :: sub) ++ [c]).map Lexeme.anywhere) = some n.string := by
    obtain hn | hn := hn <;>
      simp [nodeTypeOf?, tokenOf?, Lexeme.anywhere, ho, hn, Token.string, Lexeme.string]
  have hsubtype : subtypeOf? (((o :: n :: sub) ++ [c]).map Lexeme.anywhere) =
      sub.getLast?.map Lexeme.string := by
    have hn' : n.kind ≠ .slash := by
      obtain hn | hn := hn <;> rw [hn] <;> decide
    cases hsub with
    | absent => simp [subtypeOf?, tokenOf?, Lexeme.anywhere, ho, hn', hc]
    | present hslash hname =>
      simp [subtypeOf?, tokenOf?, Lexeme.anywhere, ho, hn', hslash, hname, Token.string,
        Lexeme.string]
  refine .node (by decide) ?_
  have hnode := Tree.shapes_tree ((o :: n :: sub).map .leaf ++ ts ++ [c].map .leaf)
  rw [hshapes, hpredicates, Tree.tokensOf, hleaves, htype, hsubtype] at hnode
  exact hnode

theorem shows_group (h : Shows ts ss ps) :
    Shows [.node .group (.leaf o :: (ts ++ [.leaf c]))] [.group ss ps] [] := by
  obtain ⟨hshapes, hpredicates, -⟩ := h.around [o] [c]
  have hnode := Tree.shapes_group ([o].map .leaf ++ ts ++ [c].map .leaf)
  rw [hshapes, hpredicates] at hnode
  exact .node (by decide) hnode

theorem shows_alternation (h : Shows ts ss ps) :
    Shows [.node .alternation (.leaf o :: (ts ++ [.leaf c]))] [.alternation ss] [] := by
  obtain ⟨hshapes, -, -⟩ := h.around [o] [c]
  have hnode := Tree.shapes_alternation ([o].map .leaf ++ ts ++ [c].map .leaf)
  rw [hshapes] at hnode
  exact .node (by decide) hnode

theorem shows_field {t : Tree Lexeme} {s : Shape} (hn : n.kind = .ident)
    (h : Shows [t] [s] ps) :
    Shows [.node .field [.leaf n, .leaf c, t]] [.field (some n.string) (some s)] [] := by
  obtain ⟨hshapes, -, hleaves⟩ := h.around [n, c] []
  have hname : fieldNameOf? (([n, c] ++ []).map Lexeme.anywhere) = some n.string := by
    simp [fieldNameOf?, tokenOf?, Lexeme.anywhere, hn, Token.string, Lexeme.string]
  have hnode := Tree.shapes_field ([n, c].map .leaf ++ [t] ++ [].map .leaf)
  rw [hshapes, Tree.tokensOf, hleaves, hname] at hnode
  exact .node (by decide) hnode

theorem shows_negatedField (ho : o.kind = .bang) (hn : n.kind = .ident) :
    Shows [.node .negatedField [.leaf o, .leaf n]] [.negatedField (some n.string)] [] := by
  have hname : fieldNameOf? ([o, n].map Lexeme.anywhere) = some n.string := by
    simp [fieldNameOf?, tokenOf?, Lexeme.anywhere, ho, hn, Token.string, Lexeme.string]
  have hnode := Tree.shapes_negatedField [.leaf o, .leaf n]
  have hleaves := Tree.leafChildren_map_leaf [o, n]
  rw [List.map_cons, List.map_cons, List.map_nil] at hleaves
  rw [Tree.tokensOf, hleaves, hname] at hnode
  exact .node (by decide) hnode

theorem argumentShapes_leaf {l : Lexeme}
    (h : l.kind ≠ .captureName ∧ l.kind ≠ .ident ∧ l.kind ≠ .underscore) :
    Tree.argumentShapes [.leaf l] = [] := by
  obtain ⟨hcapture, hident, hunderscore⟩ := h
  rw [Tree.argumentShapes, Tree.mapAll, Tree.mapAll, Tree.map, List.filterMap_cons,
    Argument.ofTree?.eq_def]
  dsimp only [Lexeme.anywhere]
  split <;> simp_all

/-- A predicate node shows no expression, but a predicate. -/
theorem shows_predicate {args : List ClauseArg} (ho : o.kind = .parenOpen)
    (hn : n.kind = .predicateName) (hc : c.kind = .parenClose)
    (h : Tree.argumentShapes ts = args) :
    Shows [.node .predicate (.leaf o :: (.leaf n :: ts ++ [.leaf c]))] [] [⟨n.name, args⟩] := by
  have hname : tokenOf? (· = .predicateName)
      (Tree.tokensOf (.leaf o :: (.leaf n :: ts ++ [.leaf c]))) = some n.anywhere := by
    simp [Tree.tokensOf, Tree.leafChildren, tokenOf?, Lexeme.anywhere, ho, hn]
  have hargs : Tree.argumentShapes (.leaf o :: (.leaf n :: ts ++ [.leaf c])) = args := by
    have hsplit : .leaf o :: (.leaf n :: ts ++ [.leaf c]) =
        [.leaf o] ++ ([.leaf n] ++ (ts ++ [.leaf c])) := rfl
    rw [hsplit, Tree.argumentShapes_append, Tree.argumentShapes_append, Tree.argumentShapes_append,
      h, argumentShapes_leaf (by simp [ho]), argumentShapes_leaf (by simp [hn]),
      argumentShapes_leaf (by simp [hc])]
    simp
  refine ⟨rfl, ?_, rfl⟩
  rw [Tree.predicateShapes_predicate, hname, hargs]
  rfl

end Nodes

end Concord.Query
