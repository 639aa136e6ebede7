import Concord.Check.Hint
import Concord.Text.Style

/-!
# Reports

`Report.ofCategories` answers every check of every category, in order; no failed check stops it.
A report succeeds if all of its checks passed, and one without checks succeeds.
-/

set_option autoImplicit false

namespace Concord

/-- The answer to one check.  Only a failed check has a hint. -/
structure Outcome where
  category : String
  check : Check
  passed : Bool
  hint : Option String
deriving DecidableEq, Repr, Inhabited

/-- The answers to checks, in order. -/
structure Report where
  outcomes : List Outcome := []
deriving DecidableEq, Repr, Inhabited

/-- Answers one check. -/
def Outcome.ofCheck (a : Artifacts) (category : String) (c : Check) : Outcome :=
  let passed := c.holds a
  ⟨category, c, passed, if passed then none else c.hint? a⟩

/-- An outcome as JSON, without a hint if it has none. -/
def Outcome.toJson (o : Outcome) : Json.Value :=
  .object ([("category", .string o.category), ("check", o.check.toJson),
    ("passed", .bool o.passed)] ++ (o.hint.map fun h ↦ ("hint", .string h)).toList)

namespace Report

/-- Answers all checks of all categories. -/
def ofCategories (a : Artifacts) (categories : List Category) : Report :=
  ⟨categories.flatMap fun c ↦ c.checks.map (Outcome.ofCheck a c.name)⟩

/-- Whether all checks passed. -/
def success (r : Report) : Bool := r.outcomes.all Outcome.passed

/-- The answers to failed checks. -/
def failures (r : Report) : List Outcome := r.outcomes.filter fun o ↦ !o.passed

/-- How many checks passed. -/
def passedCount (r : Report) : Nat := (r.outcomes.filter Outcome.passed).length

/-- How many checks failed. -/
def failedCount (r : Report) : Nat := r.failures.length

/-- The lines for one check. -/
def outcomeText (o : Outcome) : List Fragment :=
  let mark := if o.passed then Fragment.painted .green "pass" else .painted .red "FAIL"
  [.plain "  ", mark, .plain ("  " ++ o.check.describe ++ "\n")] ++
    match o.hint with
    | some h => [.plain "        ", .painted .dim ("hint: " ++ h), .plain "\n"]
    | none => []

/-- The lines for outcomes, with the name of a category where it changes. -/
def outcomesText (current : Option String) : List Outcome → List Fragment
  | [] => []
  | o :: os =>
    (if current = some o.category then []
      else [.painted .blue o.category, .plain "\n"]) ++
      outcomeText o ++ outcomesText (some o.category) os

/-- The report for a reader: a line for each check, and at the end how many passed and failed. -/
def text (r : Report) : List Fragment :=
  let colour := if r.failedCount = 0 then Colour.green else .red
  outcomesText none r.outcomes ++
    [.painted colour (toString r.passedCount ++ " passed, " ++ toString r.failedCount ++ " failed")]

/-- The report as JSON. -/
def toJson (r : Report) : Json.Value :=
  .object [("outcomes", .list (r.outcomes.map Outcome.toJson))]

end Report

/-- Why no categories could be selected. -/
structure UnknownCategory where
  name : String
  suggestion : Option String
deriving DecidableEq, Repr, Inhabited

/-- The reason in words. -/
def UnknownCategory.message (u : UnknownCategory) : String :=
  "unknown category `" ++ u.name ++ "`" ++
    match u.suggestion with
    | some close => "; " ++ didYouMean close
    | none => ""

/-- The categories with the given names, in their own order; all of them if no name is given.  A
name that no category has is refused. -/
def selectCategories (categories : List Category) (names : List String) :
    Except UnknownCategory (List Category) :=
  let known := categories.map Category.name
  match names.find? fun n ↦ !known.contains n with
  | some unknown => .error ⟨unknown, suggest unknown known⟩
  | none => .ok (categories.filter fun c ↦ names.isEmpty || names.contains c.name)

end Concord
