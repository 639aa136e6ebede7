import Concord.Proofs.Query.Accessors
import Concord.Query.Pattern

/-!
# What an expression says

An expression as it is read off a text has the places of all its parts, and its strings are as they
were written.  Its `Shape` is what remains without that: names, values and how they nest.

The shape of what is read off a tree does not depend on blanks, comments and places, so it can be
computed from the tree that the productions built: `Tree.shapes` does that, and `shapes_bareAll`
says that it comes to the same.
-/

set_option autoImplicit false

namespace Concord.Query

/-! ## Shapes -/

/-- A predicate without its place. -/
structure PredicateShape where
  name : String
  args : List ClauseArg
deriving DecidableEq, Repr

/-- An expression without the places of its parts, and with the values of its strings. -/
inductive Shape where
  | tree (nodeType subtype : Option String) (children : List Shape)
      (predicates : List PredicateShape)
  | group (children : List Shape) (predicates : List PredicateShape)
  | alternation (branches : List Shape)
  | str (value : String)
  | wildcard
  | anchor
  | field (name : Option String) (value : Option Shape)
  | negatedField (name : Option String)
  | quantified (mark : Option String) (inner : Option Shape)
  | captured (names : List String) (inner : Option Shape)
deriving Repr

/-- What an argument says. -/
def Argument.shape : Argument → ClauseArg
  | .capture name => .capture name
  | .str literal => .string literal.value
  | .ident name => .ident name

/-- What a predicate says. -/
def Predicate.shape (p : Predicate) : PredicateShape := ⟨p.name, p.args.map Argument.shape⟩

namespace Expr

mutual

/-- What an expression says. -/
def shape : Expr → Shape
  | tree _ nodeType subtype children predicates =>
    .tree nodeType subtype (shapeAll children) (predicates.map Predicate.shape)
  | group _ children predicates => .group (shapeAll children) (predicates.map Predicate.shape)
  | alternation _ branches => .alternation (shapeAll branches)
  | str literal => .str literal.value
  | wildcard _ => .wildcard
  | anchor _ => .anchor
  | field _ name none => .field name none
  | field _ name (some value) => .field name (some value.shape)
  | negatedField _ name => .negatedField name
  | quantified _ mark none => .quantified mark none
  | quantified _ mark (some inner) => .quantified mark (some inner.shape)
  | captured _ names none => .captured names none
  | captured _ names (some inner) => .captured names (some inner.shape)

/-- What some expressions say. -/
def shapeAll : List Expr → List Shape
  | [] => []
  | e :: es => e.shape :: shapeAll es

end

theorem shapeAll_eq_map (es : List Expr) : shapeAll es = es.map shape := by
  induction es with
  | nil => rfl
  | cons e es ih => rw [shapeAll, ih, List.map_cons]

theorem shape_field (span : Span) (name : Option String) (value : Option Expr) :
    (field span name value).shape = .field name (value.map shape) := by
  cases value <;> rfl

theorem shape_quantified (span : Span) (mark : Option String) (inner : Option Expr) :
    (quantified span mark inner).shape = .quantified mark (inner.map shape) := by
  cases inner <;> rfl

theorem shape_captured (span : Span) (names : List String) (inner : Option Expr) :
    (captured span names inner).shape = .captured names (inner.map shape) := by
  cases inner <;> rfl

end Expr

/-! ## Shapes of trees without places -/

/-- The lexeme as a token, where it does not matter where that stands. -/
def Lexeme.anywhere (l : Lexeme) : Token := ⟨l, 0⟩

theorem significantOf_map_anywhere (ts : List Token) :
    significantOf ((significantOf ts).map Lexeme.anywhere) = significantOf ts := by
  induction ts with
  | nil => rfl
  | cons t ts ih =>
    cases ht : t.kind.isTrivia with
    | true => rw [significantOf_cons, ht, if_pos rfl, ih]
    | false =>
      have hl : t.toLexeme.anywhere.kind.isTrivia = false := ht
      rw [significantOf_cons, ht, if_neg Bool.false_ne_true, List.map_cons, significantOf_cons, hl,
        if_neg Bool.false_ne_true, ih]
      rfl

namespace Tree

/-- The shapes of the expressions among some trees. -/
def shapes (ts : List (Tree Lexeme)) : List Shape :=
  (Expr.ofTrees (mapAll Lexeme.anywhere ts)).map Expr.shape

/-- The shapes of the predicates among some trees. -/
def predicateShapes (ts : List (Tree Lexeme)) : List PredicateShape :=
  ((mapAll Lexeme.anywhere ts).filterMap Predicate.ofTree?).map Predicate.shape

theorem shapes_append (ts us : List (Tree Lexeme)) :
    shapes (ts ++ us) = shapes ts ++ shapes us := by
  simp only [shapes, mapAll_append, Expr.ofTrees_eq_filterMap, List.filterMap_append,
    List.map_append]

theorem predicateShapes_append (ts us : List (Tree Lexeme)) :
    predicateShapes (ts ++ us) = predicateShapes ts ++ predicateShapes us := by
  simp only [predicateShapes, mapAll_append, List.filterMap_append, List.map_append]

theorem shapes_singleton (t : Tree Lexeme) :
    shapes [t] = ((Expr.ofTree? (t.map Lexeme.anywhere)).map Expr.shape).toList := by
  rw [shapes, mapAll, mapAll, Expr.ofTrees, Expr.ofTrees]
  cases Expr.ofTree? (t.map Lexeme.anywhere) <;> rfl

theorem predicateShapes_singleton (t : Tree Lexeme) :
    predicateShapes [t] =
      ((Predicate.ofTree? (t.map Lexeme.anywhere)).map Predicate.shape).toList := by
  rw [predicateShapes, mapAll, mapAll, List.filterMap_cons]
  cases Predicate.ofTree? (t.map Lexeme.anywhere) <;> rfl

/-- Trees without trivia have the significant lexemes of a node. -/
theorem significantOf_bareAll (ts : List (Tree Token)) :
    significantOf (leafChildren (mapAll Lexeme.anywhere (bareAll ts))) =
      significantOf (leafChildren ts) := by
  rw [leafChildren_mapAll, leafChildren_bareAll, significantOf_map_anywhere]

/-- What is read off each tree without its trivia is read off all of them. -/
theorem filterMap_bareAll {β γ : Type} (read : Tree Token → Option β) (view : β → γ)
    (hread : ∀ t, ((mapAll Lexeme.anywhere (bare t)).filterMap read).map view =
      ((read t).map view).toList) (ts : List (Tree Token)) :
    ((mapAll Lexeme.anywhere (bareAll ts)).filterMap read).map view =
      (ts.filterMap read).map view := by
  induction ts with
  | nil => rfl
  | cons t ts ih =>
    rw [bareAll, mapAll_append, List.filterMap_append, List.map_append, ih, hread,
      List.filterMap_cons]
    cases read t <;> rfl

end Tree

open Query.Tree (bare bareAll mapAll leafChildren)

theorem StrLit.value_ofNode (t u : Tree Token) {ts us : List (Tree Token)}
    (h : significantOf (leafChildren ts) = significantOf (leafChildren us)) :
    (StrLit.ofNode t ts).value = (StrLit.ofNode u us).value := by
  rw [value, value, ofNode, ofNode]
  dsimp only
  rw [strValOf?_eq, strValOf?_eq, h]

theorem Argument.shape_bare (t : Tree Token) :
    ((mapAll Lexeme.anywhere (bare t)).filterMap Argument.ofTree?).map shape =
      ((Argument.ofTree? t).map shape).toList := by
  cases t with
  | leaf t =>
    rw [bare]
    cases h : t.kind <;>
      simp [mapAll, Tree.map, Argument.ofTree?.eq_def, h, TokenKind.isTrivia, Lexeme.anywhere,
        Token.name, Token.string, shape]
  | node kind children =>
    rw [bare, mapAll, mapAll, Tree.map]
    cases kind with
    | str =>
      have hvalue := StrLit.value_ofNode (.node .str (mapAll Lexeme.anywhere (bareAll children)))
        (.node .str children) (Tree.significantOf_bareAll children)
      simp [Argument.ofTree?, shape, hvalue]
    | _ => rfl

theorem Predicate.shape_ofTree? (children : List (Tree Token)) :
    (Predicate.ofTree? (.node .predicate children)).map shape =
      ((tokenOf? (· = .predicateName) (leafChildren children)).map Token.name).map fun name ↦
        ⟨name, (children.filterMap Argument.ofTree?).map Argument.shape⟩ := by
  rw [Predicate.ofTree?, Option.map_map, Option.map_map]
  rfl

theorem Predicate.shape_bare (t : Tree Token) :
    ((mapAll Lexeme.anywhere (bare t)).filterMap Predicate.ofTree?).map shape =
      ((Predicate.ofTree? t).map shape).toList := by
  cases t with
  | leaf t =>
    rw [bare]
    split <;> rfl
  | node kind children =>
    rw [bare, mapAll, mapAll, Tree.map]
    cases kind with
    | predicate =>
      have hargs := Tree.filterMap_bareAll Argument.ofTree? Argument.shape Argument.shape_bare
        children
      have hshape : (Predicate.ofTree?
            (.node .predicate (mapAll Lexeme.anywhere (bareAll children)))).map shape =
          (Predicate.ofTree? (.node .predicate children)).map shape := by
        rw [shape_ofTree?, shape_ofTree?, predicateNameOf?_eq, predicateNameOf?_eq,
          Tree.significantOf_bareAll, hargs]
      rw [← hshape, List.filterMap_cons]
      cases Predicate.ofTree? (.node .predicate (mapAll Lexeme.anywhere (bareAll children))) <;> rfl
    | _ => rfl

namespace Tree

theorem predicateShapes_bareAll (ts : List (Tree Token)) :
    predicateShapes (bareAll ts) = (ts.filterMap Predicate.ofTree?).map Predicate.shape :=
  filterMap_bareAll Predicate.ofTree? Predicate.shape Predicate.shape_bare ts

mutual

theorem shapes_bare : (t : Tree Token) →
    shapes (bare t) = ((Expr.ofTree? t).map Expr.shape).toList
  | .leaf t => by
    rw [bare]
    split <;> rfl
  | .node kind children => by
    have hsig := significantOf_bareAll children
    have htrees := shapes_bareAll children
    have hpredicates := predicateShapes_bareAll children
    rw [shapes] at htrees
    rw [predicateShapes] at hpredicates
    have hhead : (Expr.ofTrees (mapAll Lexeme.anywhere (bareAll children))).head?.map Expr.shape =
        (Expr.ofTrees children).head?.map Expr.shape := by
      rw [← List.head?_map, htrees, List.head?_map]
    rw [bare, shapes_singleton, map]
    refine congrArg Option.toList ?_
    cases kind with
    | tree =>
      rw [Expr.ofTree?, Expr.ofTree?, nodeTypeOf?_eq, subtypeOf?_eq, nodeTypeOf?_eq, subtypeOf?_eq,
        hsig, Option.map_some, Option.map_some, Expr.shape, Expr.shape, Expr.shapeAll_eq_map,
        Expr.shapeAll_eq_map, htrees, hpredicates]
    | group =>
      rw [Expr.ofTree?, Expr.ofTree?, Option.map_some, Option.map_some, Expr.shape, Expr.shape,
        Expr.shapeAll_eq_map, Expr.shapeAll_eq_map, htrees, hpredicates]
    | alternation =>
      rw [Expr.ofTree?, Expr.ofTree?, Option.map_some, Option.map_some, Expr.shape, Expr.shape,
        Expr.shapeAll_eq_map, Expr.shapeAll_eq_map, htrees]
    | str =>
      rw [Expr.ofTree?, Expr.ofTree?, Option.map_some, Option.map_some, Expr.shape, Expr.shape,
        StrLit.value_ofNode _ _ hsig]
    | wildcard => rfl
    | anchor => rfl
    | field =>
      rw [Expr.ofTree?, Expr.ofTree?, fieldNameOf?_eq, fieldNameOf?_eq, hsig, Option.map_some,
        Option.map_some, Expr.shape_field, Expr.shape_field, hhead]
    | negatedField =>
      rw [Expr.ofTree?, Expr.ofTree?, fieldNameOf?_eq, fieldNameOf?_eq, hsig]
      rfl
    | quantifier =>
      rw [Expr.ofTree?, Expr.ofTree?, quantifierOf?_eq, quantifierOf?_eq, hsig, Option.map_some,
        Option.map_some, Expr.shape_quantified, Expr.shape_quantified, hhead]
    | capture =>
      rw [Expr.ofTree?, Expr.ofTree?, captureNamesOf_eq, captureNamesOf_eq, hsig, Option.map_some,
        Option.map_some, Expr.shape_captured, Expr.shape_captured, hhead]
    | root => rfl
    | predicate => rfl
    | error => rfl

/-- **The shapes of expressions do not depend on trivia and places.** -/
theorem shapes_bareAll : (ts : List (Tree Token)) →
    shapes (bareAll ts) = (Expr.ofTrees ts).map Expr.shape
  | [] => rfl
  | t :: ts => by
    rw [bareAll, shapes_append, shapes_bare t, shapes_bareAll ts, Expr.ofTrees]
    cases Expr.ofTree? t <;> rfl

end

end Tree

end Concord.Query
