import Concord.Artifact.Basic
import Concord.Check.Basic
import Concord.Text.EditDistance
import Concord.Text.Search

/-!
# Answers to checks, and hints for failed ones

Every check is answered by yes or no.  For a failed check `Check.hint?` looks for a name that was
probably meant, or tells what the artifacts have in its place.
-/

set_option autoImplicit false

namespace Concord

open Query (withoutMarker)

/-- The greatest number of names in a hint. -/
def maxHintNames : Nat := 5

/-- Names with commas between them, and how many were left out. -/
def nameList (names : List String) : String :=
  String.intercalate ", " (names.take maxHintNames) ++
    if maxHintNames < names.length then
      ", and " ++ toString (names.length - maxHintNames) ++ " more"
    else ""

/-- A question with a name in it. -/
def didYouMean (name : String) : String := "did you mean `" ++ name ++ "`?"

/-- The text before the last dot, if there is a dot. -/
def beforeLastDot? (s : String) : Option String :=
  match s.toList.reverse.dropWhile (· != '.') with
  | [] => none
  | _ :: rest => some (String.ofList rest.reverse)

/-- A scope that was probably meant, or the scopes beside the one that is missing. -/
def scopeHint? (g : ScopeGrammar) (scope : String) : Option String :=
  match suggest scope g.scopes with
  | some close => some (didYouMean close)
  | none =>
    match beforeLastDot? scope with
    | none => none
    | some parent =>
      match g.scopesUnder parent with
      | [] => none
      | siblings => some ("declared under `" ++ parent ++ "`: " ++ nameList siblings)

/-- Whether a missing rule is referred to, or a rule that was probably meant. -/
def ruleHint? (g : Grammar) (rule : String) : Option String :=
  if g.isReferenced rule then some ("`$." ++ rule ++ "` is referenced but never declared")
  else (suggest rule g.ruleNames).map didYouMean

/-- The captures of a node type, or a node type that was probably meant. -/
def captureHint (d : Query.Document) (node capture : String) : String :=
  match d.capturesOf node with
  | [] =>
    match suggest node d.capturedNodeTypes with
    | some close => "did you mean `(" ++ close ++ ") @" ++ capture ++ "`?"
    | none => "no pattern captures `(" ++ node ++ ")`"
  | pairs =>
    "`(" ++ node ++ ")` is captured as " ++ nameList (pairs.map fun p ↦ "@" ++ p.capture)

/-- A capture that was probably meant, if no pattern has the one that was asked for. -/
def captureNameHint? (d : Query.Document) (capture : String) : Option String :=
  if d.captureNames.contains capture then none
  else
    let absent := "no pattern captures `@" ++ capture ++ "`"
    match suggest capture d.captureNames with
    | some close => some (absent ++ "; did you mean `@" ++ close ++ "`?")
    | none => some absent

namespace Check

/-- Whether the artifacts are as the check expects. -/
def holds (a : Artifacts) : Check → Bool
  | scope s => a.reference.hasScope s
  | rule r => a.grammar.grammar.hasRule r
  | capture n c => a.highlights.presentsCapture n c
  | predicate c p arg => a.highlights.presentsPredicate c p arg
  | accepts c t => a.highlights.captureAccepts c t
  | contains r t => containsText (a.source r) t

/-- What may help to mend a failed check. -/
def hint? (a : Artifacts) : Check → Option String
  | scope s => scopeHint? a.reference s
  | rule r => ruleHint? a.grammar.grammar r
  | capture n c => some (captureHint a.highlights n (withoutMarker '@' c))
  | predicate c _ _ => captureNameHint? a.highlights (withoutMarker '@' c)
  | accepts c _ => captureNameHint? a.highlights (withoutMarker '@' c)
  | contains _ _ => none

end Check

end Concord
