import Concord.Text.Span

/-!
# Grammars

Of a grammar only its name, the rules that it declares and the rules that its bodies refer to are
kept.  Declarations are in the order in which a name was first declared, and references in the
order of first use; a later declaration of a name takes the place of an earlier one.
-/

set_option autoImplicit false

namespace Concord

/-- A declared rule, with the place of its name if the source has places. -/
structure Rule where
  name : String
  span : Option Span := none
deriving DecidableEq, Repr, Inhabited

/-- What a grammar declares and refers to. -/
structure Grammar where
  name : Option String := none
  rules : List Rule := []
  references : List String := []
deriving DecidableEq, Repr, Inhabited

/-- Puts a rule in the place of the one with its name, or behind all rules. -/
def Rule.insertInto (r : Rule) : List Rule → List Rule
  | [] => [r]
  | q :: qs => if q.name = r.name then r :: qs else q :: r.insertInto qs

namespace Grammar

/-- The declaration of a name. -/
def rule? (g : Grammar) (name : String) : Option Rule := g.rules.find? (·.name == name)

/-- Whether a name is declared.  References alone do not count. -/
def hasRule (g : Grammar) (name : String) : Bool := g.rules.any (·.name == name)

/-- The declared names, in order. -/
def ruleNames (g : Grammar) : List String := g.rules.map Rule.name

/-- Declares a rule.  Also answers the declaration that it replaces. -/
def declare (g : Grammar) (r : Rule) : Grammar × Option Rule :=
  ({ g with rules := r.insertInto g.rules }, g.rule? r.name)

/-- Refers to a rule. -/
def refer (g : Grammar) (name : String) : Grammar :=
  if g.references.contains name then g else { g with references := g.references ++ [name] }

/-- Whether a name is referred to. -/
def isReferenced (g : Grammar) (name : String) : Bool := g.references.contains name

/-- The names that are referred to but not declared, in the order of first use. -/
def undeclared (g : Grammar) : List String := g.references.filter fun name ↦ !g.hasRule name

end Grammar

end Concord
