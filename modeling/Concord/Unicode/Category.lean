import Concord.Unicode.Category.Letter
import Concord.Unicode.Category.Mark
import Concord.Unicode.Category.Number
import Concord.Unicode.Category.Other
import Concord.Unicode.Category.Punctuation
import Concord.Unicode.Category.Symbol

/-!
# General categories

Every code point is in one general category.  The categories of the assigned characters are given
by tables; what is in no table and is no surrogate is unassigned.
-/

set_option autoImplicit false

namespace Concord.Unicode

/-- The general categories. -/
inductive Category where
  | uppercaseLetter | lowercaseLetter | titlecaseLetter | modifierLetter | otherLetter
  | nonspacingMark | spacingMark | enclosingMark | decimalNumber | letterNumber | otherNumber
  | connectorPunctuation | dashPunctuation | openPunctuation | closePunctuation
  | initialPunctuation | finalPunctuation | otherPunctuation | mathSymbol | currencySymbol
  | modifierSymbol | otherSymbol | spaceSeparator | lineSeparator | paragraphSeparator
  | control | format | privateUse
  | surrogate | unassigned
deriving DecidableEq, Repr, Inhabited

namespace Category

/-- The table of a category of assigned characters. -/
def table? : Category → Option RangeTable
  | uppercaseLetter => some Table.uppercaseLetter
  | lowercaseLetter => some Table.lowercaseLetter
  | titlecaseLetter => some Table.titlecaseLetter
  | modifierLetter => some Table.modifierLetter
  | otherLetter => some Table.otherLetter
  | nonspacingMark => some Table.nonspacingMark
  | spacingMark => some Table.spacingMark
  | enclosingMark => some Table.enclosingMark
  | decimalNumber => some Table.decimalNumber
  | letterNumber => some Table.letterNumber
  | otherNumber => some Table.otherNumber
  | connectorPunctuation => some Table.connectorPunctuation
  | dashPunctuation => some Table.dashPunctuation
  | openPunctuation => some Table.openPunctuation
  | closePunctuation => some Table.closePunctuation
  | initialPunctuation => some Table.initialPunctuation
  | finalPunctuation => some Table.finalPunctuation
  | otherPunctuation => some Table.otherPunctuation
  | mathSymbol => some Table.mathSymbol
  | currencySymbol => some Table.currencySymbol
  | modifierSymbol => some Table.modifierSymbol
  | otherSymbol => some Table.otherSymbol
  | spaceSeparator => some Table.spaceSeparator
  | lineSeparator => some Table.lineSeparator
  | paragraphSeparator => some Table.paragraphSeparator
  | control => some Table.control
  | format => some Table.format
  | privateUse => some Table.privateUse
  | surrogate | unassigned => none

/-- The categories that have a table. -/
def tabled : List Category :=
  [.uppercaseLetter, .lowercaseLetter, .titlecaseLetter, .modifierLetter, .otherLetter,
   .nonspacingMark, .spacingMark, .enclosingMark, .decimalNumber, .letterNumber, .otherNumber,
   .connectorPunctuation, .dashPunctuation, .openPunctuation, .closePunctuation,
   .initialPunctuation, .finalPunctuation, .otherPunctuation, .mathSymbol, .currencySymbol,
   .modifierSymbol, .otherSymbol, .spaceSeparator, .lineSeparator, .paragraphSeparator, .control,
   .format, .privateUse]

/-- Whether a character is in the category.  No character is a surrogate. -/
def contains (k : Category) (c : Char) : Bool :=
  match k with
  | surrogate => false
  | unassigned => tabled.all fun k ↦ !(k.table?.any (·.contains c.toNat))
  | k => k.table?.any (·.contains c.toNat)

end Category

end Concord.Unicode
