import Concord.Query.Tree
import Concord.Text.Quoted

/-!
# Dumps of syntax trees

A dump shows a tree one node or token a line, each level indented by two more spaces.  Trivia is
left out, so the dump does not depend on the layout of the text.
-/

set_option autoImplicit false

namespace Concord.Query.Tree

/-- The indentation of a level. -/
def indent (level : Nat) : String := String.ofList (List.replicate (2 * level) ' ')

/-- The line of a token, or nothing for trivia. -/
def dumpToken (level : Nat) (t : Token) : String :=
  if t.kind.isTrivia then ""
  else indent level ++ t.kind.label ++ " " ++ quoted (String.ofList t.text) ++ "\n"

mutual

/-- The lines of a tree whose root stands at the given level. -/
def dumpAt (level : Nat) : Tree Token → String
  | leaf t => dumpToken level t
  | node kind children => indent level ++ kind.label ++ "\n" ++ dumpAll (level + 1) children

/-- The lines of trees that stand side by side. -/
def dumpAll (level : Nat) : List (Tree Token) → String
  | [] => ""
  | t :: ts => dumpAt level t ++ dumpAll level ts

end

/-- The lines of a whole tree. -/
def dump (t : Tree Token) : String := dumpAt 0 t

end Concord.Query.Tree
