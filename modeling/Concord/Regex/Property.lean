import Concord.Regex.Error
import Concord.Regex.Term
import Concord.Unicode.Class

/-!
# Character properties by name

Names are compared without regard to case, blanks, hyphens, underscores and a leading `is`.  A
name stands for a general category, for a group of categories, for all characters, those of ASCII or
those that are assigned, or for white space.

No other properties are read: the names of scripts and ages, and of properties that hold or do not
hold of a character, such as `Alphabetic`, are refused as unknown.
-/

set_option autoImplicit false

namespace Concord.Regex

open Unicode (Category inAny letters marks)

/-- A name in the form in which names are compared. -/
def normalizeName (name : String) : String :=
  let cs := name.toList
  let bare := match cs with
    | a :: b :: rest => if (a = 'i' ∨ a = 'I') ∧ (b = 's' ∨ b = 'S') then rest else cs
    | _ => cs
  String.ofList <| (bare.filter fun c ↦
    c != ' ' && c != '_' && c != '-' && c.toNat < 0x80).map Char.toLower

/-- The general categories that a name stands for. -/
def categoriesOf? (name : String) : Option (List Category) :=
  match name with
  | "lu" | "uppercaseletter" => some [.uppercaseLetter]
  | "ll" | "lowercaseletter" => some [.lowercaseLetter]
  | "lt" | "titlecaseletter" => some [.titlecaseLetter]
  | "lc" | "casedletter" => some [.uppercaseLetter, .lowercaseLetter, .titlecaseLetter]
  | "lm" | "modifierletter" => some [.modifierLetter]
  | "lo" | "otherletter" => some [.otherLetter]
  | "l" | "letter" => some letters
  | "mn" | "nonspacingmark" => some [.nonspacingMark]
  | "mc" | "spacingmark" => some [.spacingMark]
  | "me" | "enclosingmark" => some [.enclosingMark]
  | "m" | "mark" | "combiningmark" => some marks
  | "nd" | "decimalnumber" | "digit" => some [.decimalNumber]
  | "nl" | "letternumber" => some [.letterNumber]
  | "no" | "othernumber" => some [.otherNumber]
  | "n" | "number" => some [.decimalNumber, .letterNumber, .otherNumber]
  | "pc" | "connectorpunctuation" => some [.connectorPunctuation]
  | "pd" | "dashpunctuation" => some [.dashPunctuation]
  | "ps" | "openpunctuation" => some [.openPunctuation]
  | "pe" | "closepunctuation" => some [.closePunctuation]
  | "pi" | "initialpunctuation" => some [.initialPunctuation]
  | "pf" | "finalpunctuation" => some [.finalPunctuation]
  | "po" | "otherpunctuation" => some [.otherPunctuation]
  | "p" | "punctuation" | "punct" =>
    some [.connectorPunctuation, .dashPunctuation, .openPunctuation, .closePunctuation,
      .initialPunctuation, .finalPunctuation, .otherPunctuation]
  | "sm" | "mathsymbol" => some [.mathSymbol]
  | "sc" | "currencysymbol" => some [.currencySymbol]
  | "sk" | "modifiersymbol" => some [.modifierSymbol]
  | "so" | "othersymbol" => some [.otherSymbol]
  | "s" | "symbol" => some [.mathSymbol, .currencySymbol, .modifierSymbol, .otherSymbol]
  | "zs" | "spaceseparator" => some [.spaceSeparator]
  | "zl" | "lineseparator" => some [.lineSeparator]
  | "zp" | "paragraphseparator" => some [.paragraphSeparator]
  | "z" | "separator" => some [.spaceSeparator, .lineSeparator, .paragraphSeparator]
  | "cc" | "control" | "cntrl" => some [.control]
  | "cf" | "format" => some [.format]
  | "cs" | "surrogate" => some [.surrogate]
  | "co" | "privateuse" => some [.privateUse]
  | "cn" | "unassigned" => some [.unassigned]
  | "c" | "other" => some [.control, .format, .surrogate, .privateUse, .unassigned]
  | _ => none

/-- The characters that a general category or a group of them stands for. -/
def categoryClass? (name : String) : Option (Char → Bool) :=
  match name with
  | "any" => some fun _ ↦ true
  | "ascii" => some fun c ↦ c.toNat < 0x80
  | "assigned" => some fun c ↦ !Category.unassigned.contains c
  | name => (categoriesOf? name).map inAny

/-- The characters that a name alone stands for.  Of the properties that are no categories, only
white space is read. -/
def plainClass? (name : String) : Option (Char → Bool) :=
  match name with
  | "whitespace" | "wspace" | "space" => some Unicode.isSpace
  | name => categoryClass? name

/-- The characters with a property.  Of the properties with values, only the general category is
read; scripts and ages are not. -/
def PropertyName.toClass : PropertyName → Except PatternError (Char → Bool)
  | .plain name => match plainClass? (normalizeName name) with
    | some p => .ok p
    | none => .error .propertyNotFound
  | .valued name value negated => match normalizeName name with
    | "gc" | "generalcategory" => match categoryClass? (normalizeName value) with
      | some p => .ok fun c ↦ p c != negated
      | none => .error .propertyValueNotFound
    | _ => .error .propertyNotFound

end Concord.Regex
