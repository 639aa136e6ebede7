/-!
# Finding a text within another
-/

set_option autoImplicit false

namespace Concord

/-- Whether a list holds another as a stretch of its own. -/
def hasStretch (part : List Char) : List Char → Bool
  | [] => part.isEmpty
  | c :: cs => part.isPrefixOf (c :: cs) || hasStretch part cs

/-- Whether a text holds another. -/
def containsText (text part : String) : Bool := hasStretch part.toList text.toList

/-- What is left of a list behind the given front, if it begins with it. -/
def stripFront? {α : Type} [BEq α] : (front : List α) → List α → Option (List α)
  | [], rest => some rest
  | a :: as, b :: bs => if a == b then stripFront? as bs else none
  | _ :: _, [] => none

end Concord
