/-!
# Coloured text

A text for a terminal is a list of fragments, and each fragment is plain or has one colour.  The
codes for the colours are written only where colours are wanted; every fragment resets its own
colour.
-/

set_option autoImplicit false

namespace Concord

/-- The colours of a report. -/
inductive Colour where
  | blue | green | red | dim
deriving DecidableEq, Repr, Inhabited

/-- The code that turns the colour on. -/
def Colour.code : Colour → String
  | blue => "\x1b[34m"
  | green => "\x1b[32m"
  | red => "\x1b[31m"
  | dim => "\x1b[2m"

/-- The code that turns all colours off. -/
def resetCode : String := "\x1b[0m"

/-- A piece of text that has one colour or none. -/
inductive Fragment where
  | plain (text : String)
  | painted (c : Colour) (text : String)
deriving DecidableEq, Repr, Inhabited

/-- The text of a fragment, with the codes for its colour if `colored` holds. -/
def Fragment.write (colored : Bool) : Fragment → String
  | plain text => text
  | painted c text => if colored then c.code ++ text ++ resetCode else text

/-- The text of fragments in order. -/
def Fragment.writeAll (colored : Bool) (fs : List Fragment) : String :=
  String.join (fs.map (write colored))

end Concord
