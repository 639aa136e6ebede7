import Concord.Diagnostic.Basic
import Concord.Query.Token

/-!
# Syntax problems of queries

The productions look only at the significant lexemes of a text, so they say where a problem
stands by counting the lexemes still `ahead` of that place.  `Report.toDiagnostic` turns the count
into a stretch of text.

Several productions may stumble over the same lexeme; `onePerPlace` keeps only the first report at
each place.
-/

set_option autoImplicit false

namespace Concord.Query

/-- What can be wrong with the syntax of a query.  An opener is given by the number of lexemes that
are ahead of it, its own included. -/
inductive Problem where
  | unclosedTree (opener : Nat)
  | unclosedAlternation (opener : Nat)
  | unclosedString
  | emptyTree
  | expectedNodeType
  | expectedSubtype
  | expectedFieldValue
  | expectedFieldName
  | expectedClosingQuote
  | captureWithoutTarget
  | bareName (name : String)
  | badArgument
  | unmatchedParen
  | unmatchedBracket
  | unexpectedText (text : String)
  | unexpectedToken
  | tooDeep
deriving DecidableEq, Repr

namespace Problem

/-- The kind of diagnostic that a problem is. -/
def kind : Problem → DiagnosticKind
  | unclosedTree _ => .unclosedTree
  | unclosedAlternation _ => .unclosedAlternation
  | unclosedString => .unclosedString
  | emptyTree => .emptyTree
  | expectedNodeType | expectedSubtype => .expectedNodeType
  | expectedFieldValue => .expectedFieldValue
  | captureWithoutTarget => .captureWithoutTarget
  | expectedFieldName | expectedClosingQuote | bareName _ | badArgument | unmatchedParen
  | unmatchedBracket | unexpectedText _ | unexpectedToken | tooDeep => .unexpectedToken

/-- What a diagnostic says of a problem. -/
def message : Problem → String
  | expectedSubtype => "expected a subtype after `/`"
  | expectedFieldName => "expected a field name after `!`"
  | expectedClosingQuote => "expected closing `\"`"
  | bareName name => "bare `" ++ name ++ "` is not a pattern; write `(" ++ name ++ ")`"
  | badArgument => "predicate arguments are captures, strings or identifiers"
  | unmatchedParen => "unmatched `)`"
  | unmatchedBracket => "unmatched `]`"
  | unexpectedText text => "unexpected `" ++ text ++ "`"
  | tooDeep => "patterns are nested too deeply"
  | p => p.kind.defaultMessage

/-- The opener that a problem is about, with the note that goes to it. -/
def opener? : Problem → Option (Nat × String)
  | unclosedTree opener => some (opener, "node started here")
  | unclosedAlternation opener => some (opener, "alternation started here")
  | _ => none

end Problem

/-- A problem at the place that has `ahead` significant lexemes from there to the end of the
text. -/
structure Report where
  ahead : Nat
  problem : Problem
deriving DecidableEq, Repr

/-- Keeps of reports at one place only the first, where `last` is the place of the report before
them. -/
def onePerPlaceAfter (last : Option Nat) : List Report → List Report
  | [] => []
  | r :: rs =>
    if last = some r.ahead then onePerPlaceAfter last rs
    else r :: onePerPlaceAfter (some r.ahead) rs

/-- Keeps of neighbouring reports at one place only the first. -/
def onePerPlace (rs : List Report) : List Report := onePerPlaceAfter none rs

/-- The stretch of the first of the last `ahead` significant tokens, or the end of the text. -/
def placeOf (tokens : Array Token) (stop : Nat) (ahead : Nat) : Span :=
  match ahead with
  | 0 => .emptyAt stop
  | ahead => (tokens[tokens.size - ahead]?.map Token.span).getD (.emptyAt stop)

/-- The diagnostic that a report stands for in a text with these significant tokens, which ends at
byte `stop`.  A delimiter that is not closed is marked from the opener on. -/
def Report.toDiagnostic (tokens : Array Token) (stop : Nat) (r : Report) : Diagnostic :=
  let here := placeOf tokens stop r.ahead
  match r.problem.opener? with
  | none => ⟨r.problem.kind, here, r.problem.message, []⟩
  | some (opener, note) =>
    let start := placeOf tokens stop opener
    ⟨r.problem.kind, start.cover here, r.problem.message, [⟨note, start⟩]⟩

end Concord.Query
