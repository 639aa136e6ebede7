import Mathlib.Data.List.Forall2
import Concord.Proofs.Query.Lossless
import Concord.Proofs.Query.Shape

/-!
# Layout does not matter

Two queries that differ only in blanks, line breaks and comments have the same significant lexemes.
The productions see nothing else, so they build the same trees and meet the same problems for both.
What is made of that afterwards depends on places, and on nothing more:

* `Tree.dumpAll_bareAll` — a dump shows a tree without its trivia and without places.
* `Pattern.shape_ofExpr` — what a pattern says is computed from the shape of its expression.
* `Predicate.remark_warning?` — so is what is said about a predicate.
* `Document.parse_congr` puts these together: two such queries are the same but for places.
-/

set_option autoImplicit false

namespace Concord

/-- What a diagnostic says, without the places that it names. -/
structure Remark where
  kind : DiagnosticKind
  message : String
  notes : List String
deriving DecidableEq, Repr

/-- What a diagnostic says. -/
def Diagnostic.remark (d : Diagnostic) : Remark :=
  ⟨d.kind, d.message, d.related.map RelatedNote.message⟩

namespace Query

/-! ## Dumps -/

namespace Tree

theorem dumpAll_append (level : Nat) (ts us : List (Tree Token)) :
    dumpAll level (ts ++ us) = dumpAll level ts ++ dumpAll level us := by
  induction ts with
  | nil => simp [dumpAll]
  | cons t ts ih => simp [dumpAll, ih, String.append_assoc]

theorem dumpToken_anywhere (level : Nat) (t : Token) :
    dumpToken level t.toLexeme.anywhere = dumpToken level t := rfl

mutual

theorem dumpAll_bare (level : Nat) : (t : Tree Token) →
    dumpAll level (mapAll Lexeme.anywhere (bare t)) = dumpAt level t
  | leaf t => by
    rw [bare, dumpAt]
    cases ht : t.kind.isTrivia with
    | true => simp [mapAll, dumpAll, dumpToken, ht]
    | false => simp [mapAll, Tree.map, dumpAll, dumpAt, dumpToken_anywhere]
  | node kind children => by
    rw [bare, mapAll, mapAll, map, dumpAll, dumpAll, dumpAt, dumpAt,
      dumpAll_bareAll (level + 1) children, String.append_empty]

/-- **A dump shows nothing but trees without trivia and places.** -/
theorem dumpAll_bareAll (level : Nat) : (ts : List (Tree Token)) →
    dumpAll level (mapAll Lexeme.anywhere (bareAll ts)) = dumpAll level ts
  | [] => rfl
  | t :: ts => by
    rw [bareAll, mapAll_append, dumpAll_append, dumpAll_bare level t, dumpAll_bareAll level ts,
      dumpAll]

end

end Tree

/-! ## Patterns -/

/-- What a capture pair says. -/
structure CaptureShape where
  nodeType : String
  named : Bool
  capture : String
deriving DecidableEq, Repr

/-- What a pattern says, without the places of its parts. -/
structure PatternShape where
  captures : List CaptureShape
  clauses : List PredicateShape
deriving DecidableEq, Repr

/-- What a capture pair says. -/
def CapturePair.shape (p : CapturePair) : CaptureShape := ⟨p.nodeType, p.named, p.capture⟩

/-- What a clause says. -/
def Clause.shape (c : Clause) : PredicateShape := ⟨c.name, c.args⟩

/-- What a pattern says. -/
def Pattern.shape (p : Pattern) : PatternShape :=
  ⟨p.captures.map CapturePair.shape, p.clauses.map Clause.shape⟩

namespace Shape

mutual

/-- The node types that a capture on the expression attaches to, and whether they are named. -/
def targets : Shape → List (String × Bool)
  | tree nodeType subtype _ _ => ((matchedType nodeType subtype).map (·, true)).toList
  | group .. | anchor | negatedField _ => []
  | alternation branches => targetsAll branches
  | str value => [(value, false)]
  | wildcard => [("_", false)]
  | field _ none | quantified _ none | captured _ none => []
  | field _ (some inner) | quantified _ (some inner) | captured _ (some inner) => inner.targets

/-- The targets of several expressions. -/
def targetsAll : List Shape → List (String × Bool)
  | [] => []
  | s :: ss => s.targets ++ targetsAll ss

end

/-- What the captures with these names say of an expression. -/
def pairs (names : List String) (inner : Option Shape) : List CaptureShape :=
  names.flatMap fun name ↦
    ((inner.map targets).getD []).map fun (nodeType, named) ↦ ⟨nodeType, named, name⟩

mutual

/-- What all capture pairs of an expression say, the outer ones first. -/
def captures : Shape → List CaptureShape
  | tree _ _ children _ => capturesAll children
  | group children _ => capturesAll children
  | alternation branches => capturesAll branches
  | str _ | wildcard | anchor | negatedField _ => []
  | field _ none | quantified _ none => []
  | field _ (some inner) | quantified _ (some inner) => inner.captures
  | captured names none => pairs names none
  | captured names (some inner) => pairs names (some inner) ++ inner.captures

/-- What the capture pairs of several expressions say. -/
def capturesAll : List Shape → List CaptureShape
  | [] => []
  | s :: ss => s.captures ++ capturesAll ss

end

mutual

/-- What all predicates of an expression say, those of its children first. -/
def predicates : Shape → List PredicateShape
  | tree _ _ children own => predicatesAll children ++ own
  | group children own => predicatesAll children ++ own
  | alternation branches => predicatesAll branches
  | str _ | wildcard | anchor | negatedField _ => []
  | field _ none | quantified _ none | captured _ none => []
  | field _ (some inner) | quantified _ (some inner) | captured _ (some inner) => inner.predicates

/-- What the predicates of several expressions say. -/
def predicatesAll : List Shape → List PredicateShape
  | [] => []
  | s :: ss => s.predicates ++ predicatesAll ss

end

/-- What the pattern of an expression says. -/
def pattern (s : Shape) : PatternShape := ⟨s.captures, s.predicates⟩

end Shape

namespace Expr

mutual

theorem targets_shape : (e : Expr) → e.shape.targets = e.targets
  | tree .. | group .. | str _ | wildcard _ | anchor _ | negatedField .. => rfl
  | alternation _ branches => by rw [shape, targets, Shape.targets, targetsAll_shapeAll branches]
  | field _ _ none | quantified _ _ none | captured _ _ none => rfl
  | field _ _ (some inner) | quantified _ _ (some inner) | captured _ _ (some inner) => by
    rw [shape, targets, Shape.targets, targets_shape inner]

theorem targetsAll_shapeAll : (es : List Expr) → Shape.targetsAll (shapeAll es) = targetsAll es
  | [] => rfl
  | e :: es => by
    rw [shapeAll, Shape.targetsAll, targetsAll, targets_shape e, targetsAll_shapeAll es]

end

theorem pairs_shape (span : Span) (names : List String) (inner : Option Expr) :
    Shape.pairs names (inner.map shape) = (pairs span names inner).map CapturePair.shape := by
  have htargets : (inner.map shape).map Shape.targets = inner.map targets := by
    cases inner with
    | none => rfl
    | some e => rw [Option.map_some, Option.map_some, targets_shape, Option.map_some]
  rw [Shape.pairs, pairs, List.map_flatMap, htargets]
  simp only [List.map_map]
  rfl

mutual

theorem captures_shape : (e : Expr) → e.shape.captures = e.captures.map CapturePair.shape
  | tree _ _ _ children _ => by rw [shape, captures, Shape.captures, capturesAll_shapeAll children]
  | group _ children _ => by rw [shape, captures, Shape.captures, capturesAll_shapeAll children]
  | alternation _ branches => by
    rw [shape, captures, Shape.captures, capturesAll_shapeAll branches]
  | str _ | wildcard _ | anchor _ | negatedField .. => rfl
  | field _ _ none | quantified _ _ none => rfl
  | field _ _ (some inner) | quantified _ _ (some inner) => by
    rw [shape, captures, Shape.captures, captures_shape inner]
  | captured span names none => pairs_shape span names none
  | captured span names (some inner) => by
    rw [shape, captures, Shape.captures, captures_shape inner, List.map_append, ← pairs_shape,
      Option.map_some]

theorem capturesAll_shapeAll : (es : List Expr) →
    Shape.capturesAll (shapeAll es) = (capturesAll es).map CapturePair.shape
  | [] => rfl
  | e :: es => by
    rw [shapeAll, Shape.capturesAll, capturesAll, captures_shape e, capturesAll_shapeAll es,
      List.map_append]

end

mutual

theorem predicates_shape : (e : Expr) → e.shape.predicates = e.predicates.map Predicate.shape
  | tree _ _ _ children _ => by
    rw [shape, predicates, Shape.predicates, predicatesAll_shapeAll children, List.map_append]
  | group _ children _ => by
    rw [shape, predicates, Shape.predicates, predicatesAll_shapeAll children, List.map_append]
  | alternation _ branches => by
    rw [shape, predicates, Shape.predicates, predicatesAll_shapeAll branches]
  | str _ | wildcard _ | anchor _ | negatedField .. => rfl
  | field _ _ none | quantified _ _ none | captured _ _ none => rfl
  | field _ _ (some inner) | quantified _ _ (some inner) | captured _ _ (some inner) => by
    rw [shape, predicates, Shape.predicates, predicates_shape inner]

theorem predicatesAll_shapeAll : (es : List Expr) →
    Shape.predicatesAll (shapeAll es) = (predicatesAll es).map Predicate.shape
  | [] => rfl
  | e :: es => by
    rw [shapeAll, Shape.predicatesAll, predicatesAll, predicates_shape e,
      predicatesAll_shapeAll es, List.map_append]

end

end Expr

theorem Clause.shape_ofPredicate (p : Predicate) : (ofPredicate p).shape = p.shape := by
  rw [ofPredicate, shape, Predicate.shape, PredicateShape.mk.injEq]
  refine ⟨rfl, List.map_congr_left fun a _ ↦ ?_⟩
  cases a <;> rfl

/-- **What a pattern says is computed from the shape of its expression.** -/
theorem Pattern.shape_ofExpr (e : Expr) : (ofExpr e).shape = e.shape.pattern := by
  have hclauses : (e.predicates.map Clause.ofPredicate).map Clause.shape =
      e.predicates.map Predicate.shape := by
    rw [List.map_map]
    exact List.map_congr_left fun p _ ↦ Clause.shape_ofPredicate p
  rw [shape, ofExpr, Shape.pattern, Expr.captures_shape, Expr.predicates_shape, hclauses]

/-! ## Diagnostics -/

/-- What a diagnostic says of a problem does not depend on the text. -/
theorem Report.remark_toDiagnostic (tokens tokens' : Array Token) (stop stop' : Nat) (r : Report) :
    (r.toDiagnostic tokens stop).remark = (r.toDiagnostic tokens' stop').remark := by
  rw [toDiagnostic, toDiagnostic]
  cases r.problem.opener? <;> rfl

/-- What is said about a predicate is determined by what the predicate says. -/
theorem Predicate.remark_warning? {p q : Predicate} (h : p.shape = q.shape) :
    p.warning?.map Diagnostic.remark = q.warning?.map Diagnostic.remark := by
  obtain ⟨hname, hargs⟩ := PredicateShape.mk.inj h
  have hhead : p.args.tail.head?.map Argument.shape = q.args.tail.head?.map Argument.shape := by
    rw [← List.head?_map, ← List.head?_map, List.map_tail, List.map_tail, hargs]
  rw [warning?, warning?, hname]
  generalize p.args.tail.head? = a at hhead ⊢
  generalize q.args.tail.head? = b at hhead ⊢
  cases (textTest q.name).1 with
  | none => rfl
  | some test =>
    cases test with
    | equal => rfl
    | oneOf => rfl
    | pattern =>
      -- only a quoted string is looked at, and its value is part of what it says
      rcases a with _ | (_ | literal | _) <;> rcases b with _ | (_ | literal' | _)
      case some.str.some.str =>
        have hvalue : literal.value = literal'.value := by simpa [Argument.shape] using hhead
        dsimp only
        rw [hvalue]
        cases Regex.read literal'.value <;> rfl
      all_goals first
        | rfl
        | simp [Argument.shape] at hhead

/-- What is read off elements one by one is determined by what the elements say. -/
theorem map_filterMap_congr {α β γ δ : Type} {key : α → β} {read : α → Option γ} {view : γ → δ}
    (hread : ∀ a b, key a = key b → (read a).map view = (read b).map view) {as bs : List α}
    (h : as.map key = bs.map key) :
    (as.filterMap read).map view = (bs.filterMap read).map view := by
  induction as generalizing bs with
  | nil =>
    rw [List.map_eq_nil_iff.mp h.symm]
  | cons a as ih =>
    obtain ⟨b, bs, rfl, hb, hbs⟩ := List.map_eq_cons_iff.mp h.symm
    have hhead := hread a b hb.symm
    have htail := ih hbs.symm
    rw [List.filterMap_cons, List.filterMap_cons]
    cases ha : read a <;> cases hb' : read b <;> simp_all

/-! ## Queries that differ in their layout -/

namespace Document

variable {a b : String}

/-- The shapes of a query are those of what the productions built. -/
theorem shapeAll_exprs (source : String) :
    Expr.shapeAll (parse source).exprs =
      Tree.shapes (Production.root (significant source)).trees := by
  have hbare := Tree.bareAll_woven (Production.leavesAll_trees_root (significant source)).symm
  rw [exprs_parse, Expr.shapeAll_eq_map, ← Tree.shapes_bareAll]
  exact congrArg Tree.shapes hbare

theorem shape_patterns (source : String) :
    (parse source).patterns.map Pattern.shape =
      (Tree.shapes (Production.root (significant source)).trees).map Shape.pattern := by
  have hexprs : (parse source).patterns = (parse source).exprs.map Pattern.ofExpr := rfl
  rw [hexprs, ← shapeAll_exprs, Expr.shapeAll_eq_map, List.map_map, List.map_map]
  exact List.map_congr_left fun e _ ↦ Pattern.shape_ofExpr e

/-- The diagnostics of a query: what the productions report, and what is said of predicates. -/
theorem diagnostics_parse (source : String) :
    (parse source).diagnostics =
      (onePerPlace (Production.root (significant source)).reports).map
          (·.toDiagnostic ((tokenize source).filter (!·.kind.isTrivia)).toArray
            source.utf8ByteSize) ++
        (Expr.predicatesAll (parse source).exprs).filterMap Predicate.warning? := rfl

/-- Queries with the same significant lexemes have the same shapes. -/
theorem shapeAll_exprs_congr (h : significant a = significant b) :
    Expr.shapeAll (parse a).exprs = Expr.shapeAll (parse b).exprs := by
  rw [shapeAll_exprs, shapeAll_exprs, h]

theorem dump_congr (h : significant a = significant b) :
    (parse a).tree.dump = (parse b).tree.dump := by
  rw [Tree.dump, Tree.dump, ← Tree.dumpAll_bare, ← Tree.dumpAll_bare, bareAll_parse, bareAll_parse,
    h]

theorem shape_patterns_congr (h : significant a = significant b) :
    (parse a).patterns.map Pattern.shape = (parse b).patterns.map Pattern.shape := by
  rw [shape_patterns, shape_patterns, h]

theorem remark_diagnostics_congr (h : significant a = significant b) :
    (parse a).diagnostics.map Diagnostic.remark = (parse b).diagnostics.map Diagnostic.remark := by
  have hpredicates : (Expr.predicatesAll (parse a).exprs).map Predicate.shape =
      (Expr.predicatesAll (parse b).exprs).map Predicate.shape := by
    rw [← Expr.predicatesAll_shapeAll, ← Expr.predicatesAll_shapeAll, shapeAll_exprs_congr h]
  rw [diagnostics_parse, diagnostics_parse, List.map_append, List.map_append, h]
  congr 1
  · rw [List.map_map, List.map_map]
    exact List.map_congr_left fun r _ ↦ r.remark_toDiagnostic _ _ _ _
  · exact map_filterMap_congr (fun _ _ ↦ Predicate.remark_warning?) hpredicates

/-- **Queries that differ only in blanks, line breaks and comments are the same but for places.**
The dumps of their trees are equal, their patterns say the same in the same order, and so do their
diagnostics. -/
theorem parse_congr (a b : String) (h : significant a = significant b) :
    (parse a).tree.dump = (parse b).tree.dump ∧
      (parse a).patterns.map Pattern.shape = (parse b).patterns.map Pattern.shape ∧
      List.Forall₂ (fun d e : Diagnostic ↦ d.kind = e.kind ∧ d.severity = e.severity ∧
          d.message = e.message ∧
          d.related.map RelatedNote.message = e.related.map RelatedNote.message)
        (parse a).diagnostics (parse b).diagnostics := by
  refine ⟨dump_congr h, shape_patterns_congr h, ?_⟩
  have hremarks := remark_diagnostics_congr h
  rw [← List.forall₂_eq_eq_eq, List.forall₂_map_left_iff, List.forall₂_map_right_iff] at hremarks
  refine hremarks.imp fun d e hde ↦ ?_
  obtain ⟨hkind, hmessage, hnotes⟩ := Remark.mk.inj hde
  exact ⟨hkind, congrArg DiagnosticKind.severity hkind, hmessage, hnotes⟩

/-- A broken query on one line, and the same with a comment and on several lines. -/
theorem parse_congr_spread :
    significant "(a (b) @x (#match? @x \"(\") [!" =
        significant "( a ; note\n  (b)@x(#match? @x\n\"(\")\n\n [ ! ; more" ∧
      (parse "(a (b) @x (#match? @x \"(\") [!").tree.dump =
        (parse "( a ; note\n  (b)@x(#match? @x\n\"(\")\n\n [ ! ; more").tree.dump ∧
      (parse "(a (b) @x (#match? @x \"(\") [!").diagnostics.length = 2 := by
  have h : significant "(a (b) @x (#match? @x \"(\") [!" =
      significant "( a ; note\n  (b)@x(#match? @x\n\"(\")\n\n [ ! ; more" := by decide +kernel
  exact ⟨h, (parse_congr _ _ h).1, by decide +kernel⟩

end Document

end Query

end Concord
