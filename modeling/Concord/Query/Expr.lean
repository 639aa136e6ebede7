import Concord.Query.Escape
import Concord.Query.Tree

/-!
# Expressions of a query

An `Expr` is a pattern read off its syntax tree: the nodes that a pattern is made of, each with the
stretch of text that it covers, and without punctuation, blanks and error nodes.  What a malformed
text leaves out is `none`.

`Expr.ofTree?` reads one node.  Predicates are not expressions: trees and groups list theirs apart
from their children, and elsewhere a predicate is passed over.
-/

set_option autoImplicit false

namespace Concord.Query

/-- A string literal, with the characters between its quotes if there are any. -/
structure StrLit where
  span : Span
  raw : Option (List Char)
deriving DecidableEq, Repr, Inhabited

/-- The text that the literal stands for. -/
def StrLit.value (s : StrLit) : String := String.ofList (unescape (s.raw.getD []))

/-- An argument of a predicate; a capture is given without its marker. -/
inductive Argument where
  | capture (name : String)
  | str (literal : StrLit)
  | ident (name : String)
deriving DecidableEq, Repr, Inhabited

/-- `(#name arguments ...)`, the name without its marker. -/
structure Predicate where
  span : Span
  name : String
  args : List Argument
deriving DecidableEq, Repr, Inhabited

/-- A pattern or a part of one. -/
inductive Expr where
  /-- `(nodeType/subtype children ...)` -/
  | tree (span : Span) (nodeType subtype : Option String) (children : List Expr)
      (predicates : List Predicate)
  /-- `(child child ...)` -/
  | group (span : Span) (children : List Expr) (predicates : List Predicate)
  /-- `[branch ...]` -/
  | alternation (span : Span) (branches : List Expr)
  | str (literal : StrLit)
  /-- `_` -/
  | wildcard (span : Span)
  /-- `.` -/
  | anchor (span : Span)
  /-- `name: value` -/
  | field (span : Span) (name : Option String) (value : Option Expr)
  /-- `!name` -/
  | negatedField (span : Span) (name : Option String)
  /-- `inner*`, `inner+` or `inner?` -/
  | quantified (span : Span) (mark : Option String) (inner : Option Expr)
  /-- `inner @name @name ...` -/
  | captured (span : Span) (names : List String) (inner : Option Expr)
deriving Repr, Inhabited

/-- The stretch of text that an expression covers. -/
def Expr.span : Expr → Span
  | tree s _ _ _ _ | group s _ _ | alternation s _ | wildcard s | anchor s | field s _ _
  | negatedField s _ | quantified s _ _ | captured s _ _ => s
  | str literal => literal.span

/-- The node type that a tree matches: its subtype, or else its type. -/
def matchedType (nodeType subtype : Option String) : Option String :=
  subtype <|> nodeType

/-! ## Tokens of a node -/

/-- The text of a token as a string. -/
def Token.string (t : Token) : String := String.ofList t.text

/-- The text of a token without its one-character marker. -/
def Token.name (t : Token) : String := String.ofList t.text.tail

/-- The first token of one of the given kinds. -/
def tokenOf? (p : TokenKind → Bool) (ts : List Token) : Option Token := ts.find? (p ·.kind)

/-- The node type among the tokens of a tree. -/
def nodeTypeOf? (ts : List Token) : Option String :=
  (tokenOf? (fun k ↦ k = .ident ∨ k = .underscore) ts).map Token.string

/-- The subtype among the tokens of a tree: the name behind the slash. -/
def subtypeOf? (ts : List Token) : Option String :=
  (tokenOf? (· = .ident) (ts.dropWhile (·.kind ≠ .slash))).map Token.string

/-- The name of a field among its tokens. -/
def fieldNameOf? (ts : List Token) : Option String :=
  (tokenOf? (· = .ident) ts).map Token.string

/-- The names of the captures among some tokens. -/
def captureNamesOf (ts : List Token) : List String :=
  (ts.filter (·.kind = .captureName)).map Token.name

/-! ## Reading a syntax tree -/

/-- A string node as a literal. -/
def StrLit.ofNode (t : Tree Token) (children : List (Tree Token)) : StrLit :=
  ⟨t.span, (tokenOf? (· = .strVal) (Tree.leafChildren children)).map (·.text)⟩

/-- The argument that a child of a predicate node is, if it is one. -/
def Argument.ofTree? : Tree Token → Option Argument
  | .leaf t => match t.kind with
    | .captureName => some (.capture t.name)
    | .ident | .underscore => some (.ident t.string)
    | _ => none
  | .node .str children => some (.str (.ofNode (.node .str children) children))
  | .node _ _ => none

/-- The predicate that a node is, if it is one. -/
def Predicate.ofTree? : Tree Token → Option Predicate
  | .node .predicate children =>
    (tokenOf? (· = .predicateName) (Tree.leafChildren children)).map fun t ↦
      ⟨Tree.span (.node .predicate children), t.name, children.filterMap Argument.ofTree?⟩
  | _ => none

namespace Expr

mutual

/-- The expression that a node is, if it is one. -/
def ofTree? : Tree Token → Option Expr
  | .leaf _ => none
  | .node kind children =>
    let span := Tree.span (.node kind children)
    let tokens := Tree.leafChildren children
    match kind with
    | .tree => some <| tree span (nodeTypeOf? tokens) (subtypeOf? tokens) (ofTrees children)
        (children.filterMap Predicate.ofTree?)
    | .group => some <| group span (ofTrees children) (children.filterMap Predicate.ofTree?)
    | .alternation => some <| alternation span (ofTrees children)
    | .str => some <| str (.ofNode (.node .str children) children)
    | .wildcard => some <| wildcard span
    | .anchor => some <| anchor span
    | .field => some <| field span (fieldNameOf? tokens) (ofTrees children).head?
    | .negatedField => some <| negatedField span (fieldNameOf? tokens)
    | .quantifier => some <| quantified span
        ((tokenOf? TokenKind.isQuantifier tokens).map Token.string) (ofTrees children).head?
    | .capture => some <| captured span (captureNamesOf tokens) (ofTrees children).head?
    | .root | .predicate | .error => none

/-- The expressions among some nodes, in order. -/
def ofTrees : List (Tree Token) → List Expr
  | [] => []
  | t :: ts => match ofTree? t with
    | some e => e :: ofTrees ts
    | none => ofTrees ts

end

theorem ofTrees_eq_filterMap (ts : List (Tree Token)) : ofTrees ts = ts.filterMap ofTree? := by
  induction ts with
  | nil => simp [ofTrees]
  | cons t ts ih => cases h : ofTree? t <;> simp [ofTrees, h, ih]

end Expr

end Concord.Query
