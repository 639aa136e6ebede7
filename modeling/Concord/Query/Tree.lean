import Concord.Query.Token

/-!
# Syntax trees of queries

A tree has leaves of some type and nodes of a kind.  The productions build a tree over the
significant lexemes alone; `Tree.weave` then puts a whole token stream into that shape, so that
each blank and each comment stands in front of the outermost node that begins behind it.  The
result is lossless: its leaves are the token stream (`leaves_weaveRoot`).
-/

set_option autoImplicit false

namespace Concord.Query

/-- What a node is. -/
inductive NodeKind where
  | root | tree | group | alternation | str | wildcard | field | negatedField | anchor
  | quantifier | capture | predicate | error
deriving DecidableEq, Repr, Inhabited

/-- The name under which a dump of the tree shows the kind. -/
def NodeKind.label : NodeKind → String
  | root => "Root"
  | tree => "Tree"
  | group => "Group"
  | alternation => "Alt"
  | str => "Str"
  | wildcard => "Wildcard"
  | field => "Field"
  | negatedField => "NegatedField"
  | anchor => "Anchor"
  | quantifier => "Quantifier"
  | capture => "Capture"
  | predicate => "Predicate"
  | error => "Error"

/-- A tree with leaves in `α`. -/
inductive Tree (α : Type) where
  | leaf (a : α)
  | node (kind : NodeKind) (children : List (Tree α))
deriving Repr, Inhabited

namespace Tree

variable {α β : Type}

mutual

/-- The leaves of a tree from left to right. -/
def leaves : Tree α → List α
  | leaf a => [a]
  | node _ children => leavesAll children

/-- The leaves of a list of trees from left to right. -/
def leavesAll : List (Tree α) → List α
  | [] => []
  | t :: ts => t.leaves ++ leavesAll ts

end

/-- The leaves that are direct children of a node. -/
def leafChildren : List (Tree α) → List α
  | [] => []
  | leaf a :: ts => a :: leafChildren ts
  | node _ _ :: ts => leafChildren ts

@[simp] theorem leavesAll_append (ts us : List (Tree α)) :
    leavesAll (ts ++ us) = leavesAll ts ++ leavesAll us := by
  induction ts with
  | nil => simp [leavesAll]
  | cons t ts ih => simp [leavesAll, ih]

@[simp] theorem leavesAll_map_leaf (as : List α) : leavesAll (as.map leaf) = as := by
  induction as with
  | nil => simp [leavesAll]
  | cons a as ih => simp [leavesAll, leaves, ih]

/-! ## First and last leaf -/

mutual

/-- The leftmost leaf. -/
def first? : Tree α → Option α
  | leaf a => some a
  | node _ children => firstOf? children

/-- The leftmost leaf of a list of trees. -/
def firstOf? : List (Tree α) → Option α
  | [] => none
  | t :: ts => match t.first? with
    | some a => some a
    | none => firstOf? ts

end

mutual

/-- The rightmost leaf. -/
def last? : Tree α → Option α
  | leaf a => some a
  | node _ children => lastOf? children

/-- The rightmost leaf of a list of trees. -/
def lastOf? : List (Tree α) → Option α
  | [] => none
  | t :: ts => match lastOf? ts with
    | some a => some a
    | none => t.last?

end

mutual

theorem first?_eq_head? : (t : Tree α) → t.first? = t.leaves.head?
  | leaf a => by simp [first?, leaves]
  | node _ children => by rw [first?, leaves, firstOf?_eq_head? children]

theorem firstOf?_eq_head? : (ts : List (Tree α)) → firstOf? ts = (leavesAll ts).head?
  | [] => by simp [firstOf?, leavesAll]
  | t :: ts => by
    rw [firstOf?, leavesAll, first?_eq_head? t, firstOf?_eq_head? ts, List.head?_append]
    cases t.leaves.head? <;> simp

end

mutual

theorem last?_eq_getLast? : (t : Tree α) → t.last? = t.leaves.getLast?
  | leaf a => by simp [last?, leaves]
  | node _ children => by rw [last?, leaves, lastOf?_eq_getLast? children]

theorem lastOf?_eq_getLast? : (ts : List (Tree α)) → lastOf? ts = (leavesAll ts).getLast?
  | [] => by simp [lastOf?, leavesAll]
  | t :: ts => by
    rw [lastOf?, leavesAll, last?_eq_getLast? t, lastOf?_eq_getLast? ts, List.getLast?_append]
    cases (leavesAll ts).getLast? <;> simp

end

/-- The stretch of text from the first token of a tree to its last. -/
def span (t : Tree Token) : Span :=
  ⟨(t.first?.map (·.span.start)).getD 0, (t.last?.map (·.span.stop)).getD 0⟩

/-! ## Weaving trivia in -/

/-- The blanks and comments at the front of a token stream. -/
def leadingTrivia (ts : List Token) : List Token := ts.takeWhile (·.kind.isTrivia)

/-- A token stream from its first significant token on. -/
def afterTrivia (ts : List Token) : List Token := ts.dropWhile (·.kind.isTrivia)

theorem leadingTrivia_append (ts : List Token) : leadingTrivia ts ++ afterTrivia ts = ts :=
  List.takeWhile_append_dropWhile

mutual

/-- Lays a token stream over the shape of a tree: each leaf takes the next significant token.  The
answer is the tree with the trivia in front of it, and the tokens that are left. -/
def weave : Tree β → List Token → List (Tree Token) × List Token
  | leaf _, ts =>
    ((leadingTrivia ts ++ (afterTrivia ts).take 1).map leaf, (afterTrivia ts).drop 1)
  | node kind children, ts =>
    let (inner, rest) := weaveAll children (afterTrivia ts)
    ((leadingTrivia ts).map leaf ++ [node kind inner], rest)

/-- Lays a token stream over the shapes of several trees, one behind the other. -/
def weaveAll : List (Tree β) → List Token → List (Tree Token) × List Token
  | [], ts => ([], ts)
  | shape :: shapes, ts =>
    let (first, rest) := weave shape ts
    let (others, rest) := weaveAll shapes rest
    (first ++ others, rest)

end

/-- Lays a whole token stream over the trees of a document; what is left is trivia behind the last
tree and stands in the root. -/
def weaveRoot (shapes : List (Tree β)) (ts : List Token) : Tree Token :=
  let (inner, rest) := weaveAll shapes ts
  node .root (inner ++ rest.map leaf)

mutual

theorem leaves_weave : (shape : Tree β) → (ts : List Token) →
    leavesAll (weave shape ts).1 ++ (weave shape ts).2 = ts
  | leaf _, ts => by
    rw [weave, leavesAll_map_leaf, List.append_assoc, List.take_append_drop,
      leadingTrivia_append]
  | node kind children, ts => by
    have h := leaves_weaveAll children (afterTrivia ts)
    simp [weave, leavesAll, leaves, h, leadingTrivia_append]

theorem leaves_weaveAll : (shapes : List (Tree β)) → (ts : List Token) →
    leavesAll (weaveAll shapes ts).1 ++ (weaveAll shapes ts).2 = ts
  | [], ts => by simp [weaveAll, leavesAll]
  | shape :: shapes, ts => by
    have h := leaves_weave shape ts
    have h' := leaves_weaveAll shapes (weave shape ts).2
    simp [weaveAll, h', h]

end

/-- **Lossless**: the leaves of the woven tree are the token stream. -/
theorem leaves_weaveRoot (shapes : List (Tree β)) (ts : List Token) :
    (weaveRoot shapes ts).leaves = ts := by
  simp [weaveRoot, leaves, leaves_weaveAll]

end Tree

end Concord.Query
