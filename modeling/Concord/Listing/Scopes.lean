import Concord.Json.Printer
import Concord.Scope.Basic
import Concord.Text.Style

/-!
# Listing scopes
-/

set_option autoImplicit false

namespace Concord.ScopeListing

/-- The declarations of a grammar; if a scope is given, only those under it. -/
def select (g : ScopeGrammar) (front : Option String) : List ScopeDecl :=
  match front with
  | none => g.declarations
  | some front => g.declarations.filter (·.isUnder front)

/-- A text with blanks behind it, so that it has at least `width` characters. -/
def padRight (width : Nat) (s : String) : String :=
  s ++ String.ofList (List.replicate (width - s.length) ' ')

/-- The width of the first column: the number of bytes of the longest value. -/
def width (ds : List ScopeDecl) : Nat := (ds.map (·.value.utf8ByteSize)).foldl max 0

/-- A line for each declaration, with the paths in a column of their own. -/
def text (ds : List ScopeDecl) : List Fragment :=
  ds.flatMap fun d ↦
    [.plain (padRight (width ds) d.value ++ "  "), .painted .dim d.path, .plain "\n"]

/-- The declarations as JSON. -/
def toJson (ds : List ScopeDecl) : Json.Value :=
  .list (ds.map fun d ↦ .object [("value", .string d.value), ("key", .string d.key.label),
    ("path", .string d.path)])

end Concord.ScopeListing
