import Concord.Query.Dump
import Concord.Query.Lexing
import Concord.Query.Pattern
import Concord.Query.Production

/-!
# Query documents

`Document.parse` reads a query text: its tokens, its syntax tree, and from that its patterns.
Every text can be read; what is wrong with it is in the diagnostics, first the syntax problems in
the order in which they were met and then the predicates whose pattern is no regular expression.
-/

set_option autoImplicit false

namespace Concord.Query

/-- A parsed query text. -/
structure Document where
  source : String
  tree : Tree Token
  exprs : List Expr
  patterns : List Pattern
  diagnostics : List Diagnostic
deriving Repr, Inhabited

/-- The top-level expressions of a syntax tree. -/
def Tree.exprs : Tree Token → List Expr
  | .leaf _ => []
  | .node _ children => Expr.ofTrees children

/-- The syntax tree of a text and the problems that were met. -/
def parse (source : String) : Tree Token × List Diagnostic :=
  let tokens := tokenize source
  let significant := tokens.filter (!·.kind.isTrivia)
  let parsed := Production.root (significant.map Token.toLexeme)
  (Tree.weaveRoot parsed.trees tokens,
    (onePerPlace parsed.reports).map (·.toDiagnostic significant.toArray source.utf8ByteSize))

namespace Document

/-- Reads a query text. -/
def parse (source : String) : Document :=
  let (tree, problems) := Query.parse source
  let exprs := tree.exprs
  { source, tree, exprs
    patterns := exprs.map Pattern.ofExpr
    diagnostics := problems ++ (Expr.predicatesAll exprs).filterMap Predicate.warning? }

/-- All capture pairs, in document order. -/
def captures (d : Document) : List CapturePair := d.patterns.flatMap Pattern.captures

/-- The captures attached to a node type. -/
def capturesOf (d : Document) (nodeType : String) : List CapturePair :=
  d.captures.filter (·.nodeType == nodeType)

/-- The distinct names of captures, in the order of their first use. -/
def captureNames (d : Document) : List String := (d.captures.map (·.capture)).eraseDups

/-- The distinct node types with a capture, in the order of their first use. -/
def capturedNodeTypes (d : Document) : List String := (d.captures.map (·.nodeType)).eraseDups

/-- Whether a pattern attaches the capture to the node type. -/
def hasCapture (d : Document) (nodeType capture : String) : Bool :=
  (d.capturesOf nodeType).any (·.capture == capture)

end Document

end Concord.Query
