import Concord.Grammar.Basic
import Concord.Json.Printer
import Concord.Text.Style

/-!
# Listing rules
-/

set_option autoImplicit false

namespace Concord

/-- The declared rules of a grammar, and the names that it refers to but does not declare. -/
structure RulesListing where
  name : Option String
  rules : List String
  undeclared : List String
deriving DecidableEq, Repr, Inhabited

namespace RulesListing

/-- The listing of a grammar. -/
def ofGrammar (g : Grammar) : RulesListing := ⟨g.name, g.ruleNames, g.undeclared⟩

/-- A line for each name. -/
def nameLines (names : List String) : List Fragment :=
  names.map fun n ↦ .plain ("  " ++ n ++ "\n")

/-- The listing for a reader. -/
def text (l : RulesListing) : List Fragment :=
  [.painted .blue (l.name.getD "grammar"),
      .plain (": " ++ toString l.rules.length ++ " rules\n")] ++
    nameLines l.rules ++
    if l.undeclared.isEmpty then []
    else [.painted .dim "referenced but not declared:", .plain "\n"] ++ nameLines l.undeclared

/-- The listing as JSON. -/
def toJson (l : RulesListing) : Json.Value :=
  .object [("name", (l.name.map Json.Value.string).getD .null),
    ("rules", .list (l.rules.map .string)), ("undeclared", .list (l.undeclared.map .string))]

end RulesListing

end Concord
