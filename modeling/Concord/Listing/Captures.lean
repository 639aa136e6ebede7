import Concord.Json.Printer
import Concord.Query.Document
import Concord.Text.Line
import Concord.Text.Quoted
import Concord.Text.Style

/-!
# Listing captures
-/

set_option autoImplicit false

namespace Concord

/-- A capture, what it is attached to, and in which line. -/
structure CaptureRow where
  line : Nat
  node : String
  named : Bool
  capture : String
deriving DecidableEq, Repr, Inhabited

namespace CaptureRow

/-- The captures of a document; if a node type is given, only those on it. -/
def ofDocument (d : Query.Document) (node : Option String) : List CaptureRow :=
  let wanted := d.captures.filter fun p ↦ node.all (p.nodeType == ·)
  wanted.map fun p ↦ ⟨lineOf d.source p.span.start, p.nodeType, p.named, p.capture⟩

/-- A text with blanks in front of it, so that it has at least `width` characters. -/
def padLeft (width : Nat) (s : String) : String :=
  String.ofList (List.replicate (width - s.length) ' ') ++ s

/-- The node type as a pattern. -/
def nodeText (r : CaptureRow) : String := if r.named then "(" ++ r.node ++ ")" else quoted r.node

/-- A line for each capture. -/
def text (rows : List CaptureRow) : List Fragment :=
  rows.flatMap fun r ↦
    [.painted .dim (padLeft 4 (toString r.line)), .plain ("  " ++ r.nodeText ++ " "),
      .painted .blue ("@" ++ r.capture), .plain "\n"]

/-- The captures as JSON. -/
def toJson (rows : List CaptureRow) : Json.Value :=
  .list (rows.map fun r ↦ .object [("line", .number (.natural r.line)), ("node", .string r.node),
    ("named", .bool r.named), ("capture", .string r.capture)])

end CaptureRow

end Concord
