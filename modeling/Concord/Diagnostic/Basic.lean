import Concord.Text.Span

/-!
# Diagnostics

A malformed artifact is still read as far as it can be; what is wrong with it is collected as
diagnostics next to what was read.  A problem that leaves a usable set of declarations is a
warning, and a problem in the syntax of a query is an error.
-/

set_option autoImplicit false

namespace Concord

/-- How much a problem weighs. -/
inductive Severity where
  | error | warning
deriving DecidableEq, Repr, Inhabited

/-- The word that a severity is shown by. -/
def Severity.label : Severity → String
  | error => "error"
  | warning => "warning"

/-- The kinds of problems, first those of queries and then those of grammar sources. -/
inductive DiagnosticKind where
  | unclosedTree | unclosedAlternation | unclosedString
  | emptyTree | expectedNodeType | expectedFieldValue
  | captureWithoutTarget | unexpectedToken | invalidPredicateRegex
  | missingRulesObject | duplicateRule | unbalancedDelimiter
deriving DecidableEq, Repr, Inhabited

namespace DiagnosticKind

/-- Every kind has one severity. -/
def severity : DiagnosticKind → Severity
  | invalidPredicateRegex | missingRulesObject | duplicateRule | unbalancedDelimiter => .warning
  | _ => .error

/-- What is said of a problem when there is nothing more to say than its kind. -/
def defaultMessage : DiagnosticKind → String
  | unclosedTree => "missing closing `)`"
  | unclosedAlternation => "missing closing `]`"
  | unclosedString => "unterminated string literal"
  | emptyTree => "empty `()` is not allowed"
  | expectedNodeType => "expected a node type"
  | expectedFieldValue => "expected a pattern after the field name"
  | captureWithoutTarget => "capture has no pattern to attach to"
  | unexpectedToken => "unexpected token"
  | invalidPredicateRegex => "predicate regex does not compile"
  | missingRulesObject => "no `rules` object found"
  | duplicateRule => "rule is declared more than once"
  | unbalancedDelimiter => "unbalanced delimiter"

end DiagnosticKind

/-- A remark on a second place that a problem has to do with. -/
structure RelatedNote where
  message : String
  span : Span
deriving DecidableEq, Repr, Inhabited

/-- The text of a related note. -/
def RelatedNote.describe (n : RelatedNote) : String :=
  " (related: " ++ n.message ++ " at " ++ toString n.span.start ++ ".." ++
    toString n.span.stop ++ ")"

/-- A problem at its place. -/
structure Diagnostic where
  kind : DiagnosticKind
  span : Span
  message : String := kind.defaultMessage
  related : List RelatedNote := []
deriving DecidableEq, Repr, Inhabited

namespace Diagnostic

/-- The severity of the diagnostic's kind. -/
def severity (d : Diagnostic) : Severity := d.kind.severity

/-- The whole diagnostic on one line. -/
def describe (d : Diagnostic) : String :=
  d.severity.label ++ " at " ++ toString d.span.start ++ ".." ++ toString d.span.stop ++ ": " ++
    d.message ++ String.join (d.related.map RelatedNote.describe)

/-- The number of diagnostics of one severity. -/
def count (severity : Severity) (ds : List Diagnostic) : Nat :=
  ds.countP (·.severity = severity)

/-- Whether a document failed to read cleanly; warnings alone leave a usable document. -/
def anyError (ds : List Diagnostic) : Bool :=
  ds.any (·.severity = .error)

end Diagnostic

end Concord
