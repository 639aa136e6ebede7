import Concord.Artifact.Role
import Concord.Json.Printer
import Concord.Query.Presence
import Concord.Text.Quoted

/-!
# Checks

A check is one expectation about the artifacts, and a category a named group of checks.  Names of
captures may have their marker `@` in front, and names of predicates their marker `#`; they are
shown without.
-/

set_option autoImplicit false

namespace Concord

open Query (withoutMarker)

/-- One expectation about the artifacts. -/
inductive Check where
  /-- The reference grammar declares the scope. -/
  | scope (scope : String)
  /-- The structural grammar declares the rule. -/
  | rule (rule : String)
  /-- A pattern attaches the capture to nodes of the type. -/
  | capture (node capture : String)
  /-- A pattern has the predicate on the capture, with the argument. -/
  | predicate (capture predicate argument : String)
  /-- The predicates of a pattern with the capture let the text pass. -/
  | accepts (capture text : String)
  /-- The text of an artifact has the text in it. -/
  | contains (artifact : Role) (text : String)
deriving DecidableEq, Repr, Inhabited

/-- The kinds of checks. -/
inductive CheckKind where
  | scope | rule | capture | predicate | accepts | contains
deriving DecidableEq, Repr, Inhabited

namespace CheckKind

/-- The name of the kind. -/
def key : CheckKind → String
  | scope => "scope"
  | rule => "rule"
  | capture => "capture"
  | predicate => "predicate"
  | accepts => "accepts"
  | contains => "contains"

/-- All kinds. -/
def all : List CheckKind := [scope, rule, capture, predicate, accepts, contains]

/-- The kind with a name. -/
def ofKey? (name : String) : Option CheckKind := all.find? (·.key == name)

theorem ofKey?_key (k : CheckKind) : ofKey? k.key = some k := by cases k <;> decide

/-- The kind as a word, with a capital. -/
def title : CheckKind → String
  | scope => "Scope"
  | rule => "Rule"
  | capture => "Capture"
  | predicate => "Predicate"
  | accepts => "Accepts"
  | contains => "Contains"

/-- The question that a check of this kind asks. -/
def question : CheckKind → String
  | scope => "has_scope"
  | rule => "has_rule"
  | capture => "has_capture"
  | predicate => "has_predicate"
  | accepts => "capture_accepts"
  | contains => "contains"

/-- The names of the values that a check of this kind has, in order. -/
def fields : CheckKind → List String
  | scope => ["scope"]
  | rule => ["rule"]
  | capture => ["node", "capture"]
  | predicate => ["capture", "predicate", "argument"]
  | accepts => ["capture", "text"]
  | contains => ["artifact", "text"]

end CheckKind

namespace Check

/-- The kind of a check. -/
def kind : Check → CheckKind
  | scope _ => .scope
  | rule _ => .rule
  | capture _ _ => .capture
  | predicate _ _ _ => .predicate
  | accepts _ _ => .accepts
  | contains _ _ => .contains

/-- The values of a check, in the order of the fields of its kind. -/
def values : Check → List String
  | scope s => [s]
  | rule r => [r]
  | capture n c => [n, c]
  | predicate c p a => [c, p, a]
  | accepts c t => [c, t]
  | contains a t => [a.key, t]

/-- The check in words. -/
def describe (c : Check) : String :=
  c.kind.question ++ " " ++
    match c with
    | scope s => quoted s
    | rule r => quoted r
    | capture n c => "(" ++ n ++ ") @" ++ withoutMarker '@' c
    | predicate c p a =>
      "(#" ++ withoutMarker '#' p ++ " @" ++ withoutMarker '@' c ++ " " ++ quoted a ++ ")"
    | accepts c t => "@" ++ withoutMarker '@' c ++ " " ++ quoted t
    | contains a t => a.key ++ " " ++ quoted t

/-- The check as JSON: its kind and then its values. -/
def toJson (c : Check) : Json.Value :=
  .object (("kind", .string c.kind.key) :: c.kind.fields.zip (c.values.map .string))

end Check

/-- A named group of checks. -/
structure Category where
  name : String
  description : Option String := none
  checks : List Check := []
deriving DecidableEq, Repr, Inhabited

end Concord
