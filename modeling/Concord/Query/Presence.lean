import Concord.Query.Document

/-!
# Questions to a query document

Each question has a yes or no for every document, broken ones included.  A capture may be given
with its marker `@` in front, and a predicate with its marker `#`.
-/

set_option autoImplicit false

namespace Concord.Query

/-- A name without the markers in front of it. -/
def withoutMarker (marker : Char) (name : String) : String :=
  String.ofList (name.toList.dropWhile (· = marker))

namespace Document

/-- Whether a pattern attaches the capture to nodes of the type. -/
def presentsCapture (d : Document) (nodeType capture : String) : Bool :=
  d.hasCapture nodeType (withoutMarker '@' capture)

/-- Whether a pattern has a clause of that name about the capture, with an argument that is the
text. -/
def presentsPredicate (d : Document) (capture predicate argument : String) : Bool :=
  (d.patterns.flatMap Pattern.clauses).any fun c ↦
    c.name == withoutMarker '#' predicate &&
      c.subject? == some (withoutMarker '@' capture) &&
      c.args.tail.any fun a ↦ a.asText? == some argument

/-- Whether a pattern with the capture lets the text pass.  Clauses that put no test to the text of
the capture let any text pass. -/
def captureAccepts (d : Document) (capture text : String) : Bool :=
  d.patterns.any fun p ↦ p.accepts (withoutMarker '@' capture) text == some true

end Document

end Concord.Query
