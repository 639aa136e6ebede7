import Concord.Unicode.Category

/-!
# Classes of characters

Classes that are used throughout, put together from the general categories and from the few
characters that the standard adds to them.
-/

set_option autoImplicit false

namespace Concord.Unicode

namespace Table

/-- Letters in circles and squares, which are alphabetic although they are symbols. -/
def enclosedAlphanumeric : RangeTable := #[
  (0x24B6, 0x24E9), (0x1F130, 0x1F149), (0x1F150, 0x1F169), (0x1F170, 0x1F189)]

/-- White space: blanks, tabs and line breaks. -/
def whiteSpace : RangeTable := #[
  (0x9, 0xD), (0x20, 0x20), (0x85, 0x85), (0xA0, 0xA0), (0x1680, 0x1680), (0x2000, 0x200A),
  (0x2028, 0x2029), (0x202F, 0x202F), (0x205F, 0x205F), (0x3000, 0x3000)]

/-- Characters outside the categories of marks without room that extend a grapheme. -/
def graphemeExtension : RangeTable := #[
  (0x9BE, 0x9BE), (0x9D7, 0x9D7), (0xB3E, 0xB3E), (0xB57, 0xB57), (0xBBE, 0xBBE), (0xBD7, 0xBD7),
  (0xCC0, 0xCC0), (0xCC2, 0xCC2), (0xCC7, 0xCC8), (0xCCA, 0xCCB), (0xCD5, 0xCD6), (0xD3E, 0xD3E),
  (0xD57, 0xD57), (0xDCF, 0xDCF), (0xDDF, 0xDDF), (0x1715, 0x1715), (0x1734, 0x1734),
  (0x1B35, 0x1B35), (0x1B3B, 0x1B3B), (0x1B3D, 0x1B3D), (0x1B43, 0x1B44), (0x1BAA, 0x1BAA),
  (0x1BF2, 0x1BF3), (0x200C, 0x200C), (0x302E, 0x302F), (0xA953, 0xA953), (0xA9C0, 0xA9C0),
  (0xFF9E, 0xFF9F), (0x111C0, 0x111C0), (0x11235, 0x11235), (0x1133E, 0x1133E), (0x1134D, 0x1134D),
  (0x11357, 0x11357), (0x113B8, 0x113B8), (0x113C2, 0x113C2), (0x113C5, 0x113C5),
  (0x113C7, 0x113C9), (0x113CF, 0x113CF), (0x114B0, 0x114B0), (0x114BD, 0x114BD),
  (0x115AF, 0x115AF), (0x116B6, 0x116B6), (0x11930, 0x11930), (0x1193D, 0x1193D),
  (0x11F41, 0x11F41), (0x16FF0, 0x16FF1), (0x1D165, 0x1D166), (0x1D16D, 0x1D172),
  (0xE0020, 0xE007F)]

end Table

/-- Whether a character is in one of the categories. -/
def inAny (ks : List Category) (c : Char) : Bool := ks.any (·.contains c)

/-- The categories of letters. -/
def letters : List Category :=
  [.uppercaseLetter, .lowercaseLetter, .titlecaseLetter, .modifierLetter, .otherLetter]

/-- The categories of marks. -/
def marks : List Category := [.nonspacingMark, .spacingMark, .enclosingMark]

/-- White space of any kind. -/
def isSpace (c : Char) : Bool := Table.whiteSpace.contains c.toNat

/-- A decimal digit of any script. -/
def isDigit (c : Char) : Bool := Category.decimalNumber.contains c

/-- A character that stands in words: a letter, a mark, a digit, a joiner or what joins words. -/
def isWord (c : Char) : Bool :=
  c.isAlphanum || c = '_' || (c.toNat ≥ 0x80 &&
    (inAny (letters ++ marks ++ [.letterNumber, .decimalNumber, .connectorPunctuation]) c ||
      Table.enclosedAlphanumeric.contains c.toNat || c.toNat = 0x200C || c.toNat = 0x200D))

/-- A letter, a number written by letters, or a character that stands for letters: those that the
standard calls alphabetic but for marks. -/
def isAlphabetic (c : Char) : Bool :=
  inAny (.letterNumber :: letters) c || Table.enclosedAlphanumeric.contains c.toNat

/-- A digit or a number of any kind. -/
def isNumeric (c : Char) : Bool := inAny [.decimalNumber, .letterNumber, .otherNumber] c

/-- Whether quoted text can show the character as it is: it is assigned, it is no control, format,
private or separating character but the plain space, and it does not extend the character before
it. -/
def isVisible (c : Char) : Bool :=
  if c.toNat < 0x7F then ' ' ≤ c
  else !(inAny [.control, .format, .privateUse, .spaceSeparator, .lineSeparator,
      .paragraphSeparator, .nonspacingMark, .enclosingMark, .unassigned] c ||
    Table.graphemeExtension.contains c.toNat)

end Concord.Unicode
