import Concord.Diagnostic.Basic
import Concord.Query.Expr
import Concord.Regex.Meaning
import Concord.Text.Search

/-!
# What a pattern captures and requires

A top-level expression is summed up as a `Pattern`: the pairs of a node type and a capture that it
attaches, and its predicate clauses.  A clause can be put to a text: `Clause.accepts` answers
whether the text passes, if the clause is one that restricts the text of the capture in question.
-/

set_option autoImplicit false

namespace Concord.Query

/-! ## Captures -/

/-- A capture attached to nodes of a type.  The nodes are anonymous if the type is written as a
string or as a wildcard. -/
structure CapturePair where
  nodeType : String
  named : Bool
  capture : String
  span : Span
deriving DecidableEq, Repr, Inhabited

namespace Expr

mutual

/-- The node types that a capture on the expression attaches to, and whether they are named. -/
def targets : Expr → List (String × Bool)
  | tree _ nodeType subtype _ _ => ((matchedType nodeType subtype).map (·, true)).toList
  | group .. | anchor _ | negatedField .. => []
  | alternation _ branches => targetsAll branches
  | str literal => [(literal.value, false)]
  | wildcard _ => [("_", false)]
  | field _ _ none | quantified _ _ none | captured _ _ none => []
  | field _ _ (some inner) | quantified _ _ (some inner) | captured _ _ (some inner) =>
    inner.targets

/-- The targets of several expressions. -/
def targetsAll : List Expr → List (String × Bool)
  | [] => []
  | e :: es => e.targets ++ targetsAll es

end

/-- The pairs that captures with these names make on an expression. -/
def pairs (span : Span) (names : List String) (inner : Option Expr) : List CapturePair :=
  names.flatMap fun name ↦
    ((inner.map targets).getD []).map fun (nodeType, named) ↦ ⟨nodeType, named, name, span⟩

mutual

/-- All capture pairs of an expression, the outer ones first. -/
def captures : Expr → List CapturePair
  | tree _ _ _ children _ => capturesAll children
  | group _ children _ => capturesAll children
  | alternation _ branches => capturesAll branches
  | str _ | wildcard _ | anchor _ | negatedField .. => []
  | field _ _ none | quantified _ _ none => []
  | field _ _ (some inner) | quantified _ _ (some inner) => inner.captures
  | captured span names none => pairs span names none
  | captured span names (some inner) => pairs span names (some inner) ++ inner.captures

/-- The capture pairs of several expressions. -/
def capturesAll : List Expr → List CapturePair
  | [] => []
  | e :: es => e.captures ++ capturesAll es

end

mutual

/-- All predicates of an expression: those of its children come before its own. -/
def predicates : Expr → List Predicate
  | tree _ _ _ children own => predicatesAll children ++ own
  | group _ children own => predicatesAll children ++ own
  | alternation _ branches => predicatesAll branches
  | str _ | wildcard _ | anchor _ | negatedField .. => []
  | field _ _ none | quantified _ _ none | captured _ _ none => []
  | field _ _ (some inner) | quantified _ _ (some inner) | captured _ _ (some inner) =>
    inner.predicates

/-- The predicates of several expressions. -/
def predicatesAll : List Expr → List Predicate
  | [] => []
  | e :: es => e.predicates ++ predicatesAll es

end

end Expr

/-! ## Clauses -/

/-- An argument of a clause. -/
inductive ClauseArg where
  | capture (name : String)
  | string (text : String)
  | ident (text : String)
deriving DecidableEq, Repr, Inhabited

/-- The capture that an argument names. -/
def ClauseArg.asCapture? : ClauseArg → Option String
  | capture name => some name
  | _ => none

/-- The text that an argument stands for. -/
def ClauseArg.asText? : ClauseArg → Option String
  | string text | ident text => some text
  | capture _ => none

/-- A predicate with its arguments as values. -/
structure Clause where
  name : String
  args : List ClauseArg
  span : Span
deriving DecidableEq, Repr, Inhabited

/-- What a clause can require of the text of a capture. -/
inductive TextTest where
  | pattern | equal | oneOf
deriving DecidableEq, Repr, Inhabited

/-- The test with a name. -/
def TextTest.ofName? (name : List Char) : Option TextTest :=
  if name = "match?".toList then some pattern
  else if name = "eq?".toList then some equal
  else if name = "any-of?".toList then some oneOf
  else none

/-- The name of a predicate without a front `any-`, which says nothing of a word that stands for
one node.  The test `any-of?` keeps its name. -/
def dropAny (name : List Char) : List Char :=
  match stripFront? "any-".toList name with
  | some rest => if rest = "of?".toList then name else rest
  | none => name

/-- The test that a predicate name stands for, if it is one, and whether the name negates it. -/
def textTest (name : String) : Option TextTest × Bool :=
  let name := dropAny name.toList
  match stripFront? "not-".toList name with
  | some rest => (TextTest.ofName? rest, true)
  | none => (TextTest.ofName? name, false)

namespace Clause

/-- The clause that a predicate states. -/
def ofPredicate (p : Predicate) : Clause where
  name := p.name
  args := p.args.map fun
    | .capture name => .capture name
    | .str literal => .string literal.value
    | .ident name => .ident name
  span := p.span

/-- The capture that the clause is about, which its first argument names. -/
def subject? (c : Clause) : Option String := c.args.head?.bind ClauseArg.asCapture?

/-- Whether the text of a node passes a test with the given arguments; `none` if the test lacks an
argument that is a text.  A pattern that is no regular expression lets nothing pass.  Any other is
matched, however large it is: no limit is set on its size, such as an engine sets that compiles it
first. -/
def passes (test : TextTest) (args : List ClauseArg) (text : String) : Option Bool :=
  match test with
  | .pattern => do
    let pattern ← (← args.head?).asText?
    return match Regex.read pattern with
      | .ok r => r.isMatch text.toList
      | .error _ => false
  | .equal => do return (← (← args.head?).asText?) == text
  | .oneOf => some ((args.filterMap ClauseArg.asText?).any (· == text))

/-- Whether the text of the named capture passes the clause; `none` if the clause is about
something else, or needs more than the text. -/
def accepts (c : Clause) (capture text : String) : Option Bool :=
  if c.subject? ≠ some capture then none
  else match textTest c.name with
    | (none, _) => none
    | (some test, negated) => (passes test c.args.tail text).map (· != negated)

end Clause

/-- The warning that the pattern of a predicate is no regular expression.  Only a quoted string in
the place of the pattern is looked at. -/
def Predicate.warning? (p : Predicate) : Option Diagnostic :=
  match (textTest p.name).1, p.args.tail.head? with
  | some .pattern, some (.str literal) =>
    match Regex.read literal.value with
    | .ok _ => none
    | .error e => some
      { kind := .invalidPredicateRegex
        span := literal.span
        message := "`#" ++ p.name ++ "` regex does not compile: error: " ++ e.message }
  | _, _ => none

/-! ## Patterns -/

/-- A top-level expression, summed up. -/
structure Pattern where
  span : Span
  captures : List CapturePair
  clauses : List Clause
deriving DecidableEq, Repr, Inhabited

namespace Pattern

/-- The pattern that an expression is. -/
def ofExpr (e : Expr) : Pattern := ⟨e.span, e.captures, e.predicates.map Clause.ofPredicate⟩

/-- Whether the pattern has a capture of that name. -/
def capturesName (p : Pattern) (capture : String) : Bool :=
  p.captures.any (·.capture == capture)

/-- Whether all clauses of the pattern let the text of the named capture pass; `none` if the
pattern has no such capture. -/
def accepts (p : Pattern) (capture text : String) : Option Bool :=
  if p.capturesName capture then
    some (p.clauses.all fun c ↦ c.accepts capture text != some false)
  else none

end Pattern

end Concord.Query
