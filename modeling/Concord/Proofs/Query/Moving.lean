import Concord.Proofs.Query.Accessors
import Concord.Query.Presence

/-!
# Queries that stand further on in a text

What is read off a query depends on where it stands only by the stretches of text that it names.
Here every part of a query can be shifted: tokens, expressions, and patterns.

* `ofTrees_mapAll_shift` — the expressions of shifted trees are the shifted expressions.
* `Pattern.ofExpr_shift` — and so are the patterns.
* `Pattern.accepts_shift` — a shifted pattern lets the same texts pass.
-/

set_option autoImplicit false

namespace Concord

/-- The stretch `n` bytes further on. -/
def Span.shift (n : Nat) (s : Span) : Span := ⟨s.start + n, s.stop + n⟩

namespace Query

/-! ## Tokens -/

/-- The token `n` bytes further on. -/
def Token.shift (n : Nat) (t : Token) : Token := { t with start := t.start + n }

@[simp] theorem Token.toLexeme_shift (n : Nat) (t : Token) : (t.shift n).toLexeme = t.toLexeme :=
  rfl

@[simp] theorem Token.span_shift (n : Nat) (t : Token) : (t.shift n).span = t.span.shift n := by
  simp only [Token.span, Token.shift, Span.shift, Span.mk.injEq, true_and]
  omega

theorem Token.placeAll_append (start : Nat) (ls ms : List Lexeme) :
    Token.placeAll start (ls ++ ms) =
      Token.placeAll start ls ++
        Token.placeAll (start + utf8Length (ls.flatMap Lexeme.text)) ms := by
  induction ls generalizing start with
  | nil => rfl
  | cons l ls ih =>
    rw [List.cons_append, placeAll, placeAll, ih, List.flatMap_cons, utf8Length_append,
      ← Nat.add_assoc, List.cons_append]

theorem Token.placeAll_add (n start : Nat) (ls : List Lexeme) :
    Token.placeAll (start + n) ls = (Token.placeAll start ls).map (Token.shift n) := by
  induction ls generalizing start with
  | nil => rfl
  | cons l ls ih =>
    rw [placeAll, placeAll, List.map_cons, ← ih, Nat.add_right_comm]
    rfl

theorem significantOf_map_shift (n : Nat) (ts : List Token) :
    significantOf (ts.map (Token.shift n)) = significantOf ts := by
  induction ts with
  | nil => rfl
  | cons t ts ih => rw [List.map_cons, significantOf_cons, significantOf_cons, ih]; rfl

/-- A tree with leaves covers a stretch that shifts with them. -/
theorem Tree.span_map_shift (n : Nat) {t : Tree Token} (h : t.leaves ≠ []) :
    (t.map (Token.shift n)).span = t.span.shift n := by
  rw [Tree.span, Tree.span, first?_eq_head?, first?_eq_head?, last?_eq_getLast?, last?_eq_getLast?,
    leaves_map]
  rw [List.head?_map, List.getLast?_map, List.head?_eq_some_head h, List.getLast?_eq_some_getLast h]
  simp [Span.shift]

/-! ## Expressions -/

/-- The literal `n` bytes further on. -/
def StrLit.shift (n : Nat) (s : StrLit) : StrLit := { s with span := s.span.shift n }

/-- The argument `n` bytes further on. -/
def Argument.shift (n : Nat) : Argument → Argument
  | .str literal => .str (literal.shift n)
  | a => a

/-- The predicate `n` bytes further on. -/
def Predicate.shift (n : Nat) (p : Predicate) : Predicate :=
  { p with span := p.span.shift n, args := p.args.map (Argument.shift n) }

namespace Expr

mutual

/-- The expression `n` bytes further on. -/
def shift (n : Nat) : Expr → Expr
  | tree span nodeType subtype children predicates =>
    tree (span.shift n) nodeType subtype (shiftAll n children) (predicates.map (Predicate.shift n))
  | group span children predicates =>
    group (span.shift n) (shiftAll n children) (predicates.map (Predicate.shift n))
  | alternation span branches => alternation (span.shift n) (shiftAll n branches)
  | str literal => str (literal.shift n)
  | wildcard span => wildcard (span.shift n)
  | anchor span => anchor (span.shift n)
  | field span name none => field (span.shift n) name none
  | field span name (some value) => field (span.shift n) name (some (shift n value))
  | negatedField span name => negatedField (span.shift n) name
  | quantified span mark none => quantified (span.shift n) mark none
  | quantified span mark (some inner) => quantified (span.shift n) mark (some (shift n inner))
  | captured span names none => captured (span.shift n) names none
  | captured span names (some inner) => captured (span.shift n) names (some (shift n inner))

/-- The expressions `n` bytes further on. -/
def shiftAll (n : Nat) : List Expr → List Expr
  | [] => []
  | e :: es => shift n e :: shiftAll n es

end

theorem shiftAll_eq_map (n : Nat) (es : List Expr) : shiftAll n es = es.map (shift n) := by
  induction es with
  | nil => rfl
  | cons e es ih => rw [shiftAll, ih, List.map_cons]

theorem shift_field (n : Nat) (span : Span) (name : Option String) (value : Option Expr) :
    shift n (field span name value) = field (span.shift n) name (value.map (shift n)) := by
  cases value <;> rfl

theorem shift_quantified (n : Nat) (span : Span) (mark : Option String) (inner : Option Expr) :
    shift n (quantified span mark inner) =
      quantified (span.shift n) mark (inner.map (shift n)) := by
  cases inner <;> rfl

theorem shift_captured (n : Nat) (span : Span) (names : List String) (inner : Option Expr) :
    shift n (captured span names inner) =
      captured (span.shift n) names (inner.map (shift n)) := by
  cases inner <;> rfl

end Expr

/-! ## Reading shifted trees -/

open Query.Tree (mapAll leafChildren)

theorem significantOf_leafChildren_shift (n : Nat) (ts : List (Tree Token)) :
    significantOf (leafChildren (mapAll (Token.shift n) ts)) = significantOf (leafChildren ts) := by
  rw [Tree.leafChildren_mapAll, significantOf_map_shift]

theorem tokenOf?_shift (n : Nat) (p : TokenKind → Bool) (ts : List (Tree Token)) :
    tokenOf? p (leafChildren (mapAll (Token.shift n) ts)) =
      (tokenOf? p (leafChildren ts)).map (Token.shift n) := by
  rw [Tree.leafChildren_mapAll, tokenOf?, List.find?_map]
  rfl

theorem StrLit.ofNode_shift (n : Nat) {children : List (Tree Token)}
    (h : Tree.leavesAll children ≠ []) :
    StrLit.ofNode (.node .str (mapAll (Token.shift n) children))
        (mapAll (Token.shift n) children) =
      (StrLit.ofNode (.node .str children) children).shift n := by
  have hspan := Tree.span_map_shift n (t := .node .str children) h
  rw [Tree.map] at hspan
  rw [StrLit.ofNode, StrLit.ofNode, hspan, tokenOf?_shift, Option.map_map]
  rfl

theorem Argument.ofTree?_shift (n : Nat) {t : Tree Token} (h : t.Solid) :
    Argument.ofTree? (t.map (Token.shift n)) = (Argument.ofTree? t).map (Argument.shift n) := by
  cases t with
  | leaf t =>
    rw [Tree.map, Argument.ofTree?.eq_def, Argument.ofTree?.eq_def]
    dsimp only [Token.toLexeme_shift]
    cases t.kind <;> rfl
  | node kind children =>
    cases kind with
    | str =>
      rw [Tree.map, Argument.ofTree?, Argument.ofTree?, StrLit.ofNode_shift n h.1]
      rfl
    | _ => rfl

/-- What is read off trees one by one is shifted with them. -/
theorem filterMap_mapAll_shift {β : Type} (n : Nat) {read : Tree Token → Option β} {move : β → β}
    (hread : ∀ t : Tree Token, t.Solid → read (t.map (Token.shift n)) = (read t).map move)
    {ts : List (Tree Token)} (h : Tree.SolidAll ts) :
    (mapAll (Token.shift n) ts).filterMap read = (ts.filterMap read).map move := by
  induction ts with
  | nil => rfl
  | cons t ts ih =>
    rw [mapAll, List.filterMap_cons, List.filterMap_cons, hread t h.1, ih h.2]
    cases read t <;> rfl

theorem Predicate.ofTree?_shift (n : Nat) {t : Tree Token} (h : t.Solid) :
    Predicate.ofTree? (t.map (Token.shift n)) = (Predicate.ofTree? t).map (Predicate.shift n) := by
  cases t with
  | leaf t => rfl
  | node kind children =>
    cases kind with
    | predicate =>
      have hspan := Tree.span_map_shift n (t := .node .predicate children) h.1
      rw [Tree.map] at hspan
      have hargs := filterMap_mapAll_shift n (fun t ht ↦ Argument.ofTree?_shift n (t := t) ht) h.2
      rw [Tree.map, Predicate.ofTree?, Predicate.ofTree?, hspan, hargs, tokenOf?_shift,
        Option.map_map, Option.map_map]
      rfl
    | _ => rfl

namespace Expr

mutual

/-- A shifted tree is read as the shifted expression. -/
theorem ofTree?_shift (n : Nat) : (t : Tree Token) → t.Solid →
    ofTree? (t.map (Token.shift n)) = (ofTree? t).map (shift n)
  | .leaf _, _ => rfl
  | .node kind children, h => by
    have hspan := Tree.span_map_shift n (t := .node kind children) h.1
    have hsig := significantOf_leafChildren_shift n children
    have htrees := ofTrees_mapAll_shift n children h.2
    have hpredicates :=
      filterMap_mapAll_shift n (fun t ht ↦ Predicate.ofTree?_shift n (t := t) ht) h.2
    rw [Tree.map] at hspan ⊢
    cases kind with
    | tree =>
      rw [ofTree?, ofTree?, nodeTypeOf?_eq, subtypeOf?_eq, nodeTypeOf?_eq, subtypeOf?_eq, hspan,
        hsig, htrees, hpredicates, Option.map_some, shift, shiftAll_eq_map]
    | group =>
      rw [ofTree?, ofTree?, hspan, htrees, hpredicates, Option.map_some, shift, shiftAll_eq_map]
    | alternation =>
      rw [ofTree?, ofTree?, hspan, htrees, Option.map_some, shift, shiftAll_eq_map]
    | str => rw [ofTree?, ofTree?, StrLit.ofNode_shift n h.1, Option.map_some, shift]
    | wildcard => rw [ofTree?, ofTree?, hspan, Option.map_some, shift]
    | anchor => rw [ofTree?, ofTree?, hspan, Option.map_some, shift]
    | field =>
      rw [ofTree?, ofTree?, hspan, fieldNameOf?_eq, fieldNameOf?_eq, hsig, htrees, List.head?_map,
        Option.map_some, shift_field]
    | negatedField =>
      rw [ofTree?, ofTree?, hspan, fieldNameOf?_eq, fieldNameOf?_eq, hsig, Option.map_some, shift]
    | quantifier =>
      rw [ofTree?, ofTree?, hspan, quantifierOf?_eq, quantifierOf?_eq, hsig, htrees, List.head?_map,
        Option.map_some, shift_quantified]
    | capture =>
      rw [ofTree?, ofTree?, hspan, captureNamesOf_eq, captureNamesOf_eq, hsig, htrees,
        List.head?_map, Option.map_some, shift_captured]
    | root => rfl
    | predicate => rfl
    | error => rfl

/-- **Shifted trees are read as the shifted expressions.** -/
theorem ofTrees_mapAll_shift (n : Nat) : (ts : List (Tree Token)) → Tree.SolidAll ts →
    ofTrees (mapAll (Token.shift n) ts) = (ofTrees ts).map (shift n)
  | [], _ => rfl
  | t :: ts, h => by
    rw [mapAll, ofTrees, ofTrees, ofTree?_shift n t h.1, ofTrees_mapAll_shift n ts h.2]
    cases ofTree? t <;> rfl

end

/-! ## Patterns -/

end Expr

/-- The pair `n` bytes further on. -/
def CapturePair.shift (n : Nat) (p : CapturePair) : CapturePair :=
  { p with span := p.span.shift n }

/-- The clause `n` bytes further on. -/
def Clause.shift (n : Nat) (c : Clause) : Clause := { c with span := c.span.shift n }

/-- The pattern `n` bytes further on. -/
def Pattern.shift (n : Nat) (p : Pattern) : Pattern where
  span := p.span.shift n
  captures := p.captures.map (CapturePair.shift n)
  clauses := p.clauses.map (Clause.shift n)

namespace Expr

theorem span_shift (n : Nat) (e : Expr) : (e.shift n).span = e.span.shift n := by
  cases e with
  | field _ _ value => cases value <;> rfl
  | quantified _ _ inner => cases inner <;> rfl
  | captured _ _ inner => cases inner <;> rfl
  | _ => rfl

mutual

theorem targets_shift (n : Nat) : (e : Expr) → (e.shift n).targets = e.targets
  | tree .. | group .. | anchor .. | negatedField .. | str .. | wildcard .. => rfl
  | alternation _ branches => by rw [shift, targets, targets, targetsAll_shift n branches]
  | field _ _ none | quantified _ _ none | captured _ _ none => rfl
  | field _ _ (some inner) | quantified _ _ (some inner) | captured _ _ (some inner) => by
    rw [shift, targets, targets, targets_shift n inner]

theorem targetsAll_shift (n : Nat) : (es : List Expr) → targetsAll (shiftAll n es) = targetsAll es
  | [] => rfl
  | e :: es => by
    rw [shiftAll, targetsAll, targetsAll, targets_shift n e, targetsAll_shift n es]

end

theorem pairs_shift (n : Nat) (span : Span) (names : List String) (inner : Option Expr) :
    pairs (span.shift n) names (inner.map (shift n)) =
      (pairs span names inner).map (CapturePair.shift n) := by
  have htargets : (inner.map (shift n)).map targets = inner.map targets := by
    cases inner with
    | none => rfl
    | some e => rw [Option.map_some, Option.map_some, targets_shift, Option.map_some]
  rw [pairs, pairs, List.map_flatMap, htargets]
  simp only [List.map_map]
  rfl

mutual

theorem captures_shift (n : Nat) :
    (e : Expr) → (e.shift n).captures = e.captures.map (CapturePair.shift n)
  | tree _ _ _ children _ => by rw [shift, captures, captures, capturesAll_shift n children]
  | group _ children _ => by rw [shift, captures, captures, capturesAll_shift n children]
  | alternation _ branches => by rw [shift, captures, captures, capturesAll_shift n branches]
  | str .. | wildcard .. | anchor .. | negatedField .. => rfl
  | field _ _ none | quantified _ _ none => rfl
  | field _ _ (some inner) | quantified _ _ (some inner) => by
    rw [shift, captures, captures, captures_shift n inner]
  | captured span names none => pairs_shift n span names none
  | captured span names (some inner) => by
    rw [shift, captures, captures, captures_shift n inner, List.map_append, ← pairs_shift,
      Option.map_some]

theorem capturesAll_shift (n : Nat) :
    (es : List Expr) → capturesAll (shiftAll n es) = (capturesAll es).map (CapturePair.shift n)
  | [] => rfl
  | e :: es => by
    rw [shiftAll, capturesAll, capturesAll, captures_shift n e, capturesAll_shift n es,
      List.map_append]

end

mutual

theorem predicates_shift (n : Nat) :
    (e : Expr) → (e.shift n).predicates = e.predicates.map (Predicate.shift n)
  | tree _ _ _ children _ => by
    rw [shift, predicates, predicates, predicatesAll_shift n children, List.map_append]
  | group _ children _ => by
    rw [shift, predicates, predicates, predicatesAll_shift n children, List.map_append]
  | alternation _ branches => by
    rw [shift, predicates, predicates, predicatesAll_shift n branches]
  | str .. | wildcard .. | anchor .. | negatedField .. => rfl
  | field _ _ none | quantified _ _ none | captured _ _ none => rfl
  | field _ _ (some inner) | quantified _ _ (some inner) | captured _ _ (some inner) => by
    rw [shift, predicates, predicates, predicates_shift n inner]

theorem predicatesAll_shift (n : Nat) : (es : List Expr) →
    predicatesAll (shiftAll n es) = (predicatesAll es).map (Predicate.shift n)
  | [] => rfl
  | e :: es => by
    rw [shiftAll, predicatesAll, predicatesAll, predicates_shift n e, predicatesAll_shift n es,
      List.map_append]

end

end Expr

theorem Clause.ofPredicate_shift (n : Nat) (p : Predicate) :
    Clause.ofPredicate (p.shift n) = (Clause.ofPredicate p).shift n := by
  simp only [Clause.ofPredicate, Predicate.shift, Clause.shift, List.map_map, Clause.mk.injEq,
    true_and, and_true]
  refine List.map_congr_left fun a _ ↦ ?_
  cases a <;> rfl

namespace Pattern

/-- **Shifted expressions are summed up as the shifted patterns.** -/
theorem ofExpr_shift (n : Nat) (e : Expr) : ofExpr (e.shift n) = (ofExpr e).shift n := by
  have hclauses : (e.predicates.map (Predicate.shift n)).map Clause.ofPredicate =
      (e.predicates.map Clause.ofPredicate).map (Clause.shift n) := by
    rw [List.map_map, List.map_map]
    exact List.map_congr_left fun p _ ↦ Clause.ofPredicate_shift n p
  rw [ofExpr, Expr.span_shift, Expr.captures_shift, Expr.predicates_shift, hclauses]
  rfl

/-- Whether a pattern lets a text pass does not depend on where it stands. -/
theorem accepts_shift (n : Nat) (p : Pattern) (capture text : String) :
    (p.shift n).accepts capture text = p.accepts capture text := by
  have hname : (p.shift n).capturesName capture = p.capturesName capture := by
    rw [capturesName, capturesName, shift, List.any_map]
    rfl
  rw [accepts, accepts, hname, shift, List.all_map]
  rfl

end Pattern

end Query

end Concord
