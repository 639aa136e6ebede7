/-!
# Values of a TOML document

A table is kept with the way in which it was written, because that decides which later parts of a
document may add to it.
-/

set_option autoImplicit false

namespace Concord.Toml

/-- How a table was written. -/
inductive Form where
  /-- Between braces. -/
  | inline
  /-- Under a header of its own. -/
  | header
  /-- As a part of the header of another table. -/
  | implied
  /-- As a part of a key with dots. -/
  | dotted
deriving DecidableEq, Repr, Inhabited

/-- A value of a document. -/
inductive Value where
  | string (s : String)
  | integer (i : Int)
  | float (x : Float)
  | boolean (b : Bool)
  /-- A date, a time or both, in its usual spelling. -/
  | time (text : String)
  /-- A list, and whether it was written as tables with headers. -/
  | list (ofTables : Bool) (items : List Value)
  | table (form : Form) (entries : List (String × Value))
deriving Inhabited

end Concord.Toml
