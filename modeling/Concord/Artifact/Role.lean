/-!
# The three artifacts

Checks compare three documents: a structural grammar, highlight queries for it, and a reference
grammar.
-/

set_option autoImplicit false

namespace Concord

/-- Which of the three documents an artifact is. -/
inductive Role where
  | grammar | highlights | reference
deriving DecidableEq, Repr, Inhabited

namespace Role

/-- The name of the role in checks and in the configuration. -/
def key : Role → String
  | grammar => "grammar"
  | highlights => "highlights"
  | reference => "reference"

/-- The role in words. -/
def label : Role → String
  | grammar => "structural grammar"
  | highlights => "highlight queries"
  | reference => "reference grammar"

/-- All roles. -/
def all : List Role := [grammar, highlights, reference]

/-- The role with a name. -/
def ofKey? (name : String) : Option Role := all.find? (·.key == name)

theorem ofKey?_key (r : Role) : ofKey? r.key = some r := by cases r <;> decide

end Role

end Concord
