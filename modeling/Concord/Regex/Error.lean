/-!
# What is wrong with a pattern

The causes for which a text is not a regular expression, and what is said of each.
-/

set_option autoImplicit false

namespace Concord.Regex

/-- Why a text is not a regular expression. -/
inductive PatternError where
  | groupUnclosed | groupUnopened
  | groupNameDuplicate | groupNameEmpty | groupNameInvalid | groupNameUnclosed
  | flagUnrecognized | flagDuplicate | flagRepeatedNegation | flagDanglingNegation
  | flagUnexpectedEnd
  | lookAroundUnsupported | backreferenceUnsupported
  | repetitionMissing | repetitionUnclosed | repetitionEmpty | repetitionOrder
  | decimalInvalid
  | escapeUnexpectedEnd | escapeUnrecognized
  | hexEmpty | hexDigit | hexValue
  | classUnclosed | classEscape | classRangeOrder | classRangeLiteral
  | propertyInvalid | propertyNotFound | propertyValueNotFound
  | wordBoundaryUnclosed | wordBoundaryUnrecognized | wordBoundaryUnexpectedEnd
  | nestLimit (limit : Nat)
  | unicodeNotAllowed | invalidUtf8
deriving DecidableEq, Repr, Inhabited

/-- What is said of an error. -/
def PatternError.message : PatternError → String
  | groupUnclosed => "unclosed group"
  | groupUnopened => "unopened group"
  | groupNameDuplicate => "duplicate capture group name"
  | groupNameEmpty => "empty capture group name"
  | groupNameInvalid => "invalid capture group character"
  | groupNameUnclosed => "unclosed capture group name"
  | flagUnrecognized => "unrecognized flag"
  | flagDuplicate => "duplicate flag"
  | flagRepeatedNegation => "flag negation operator repeated"
  | flagDanglingNegation => "dangling flag negation operator"
  | flagUnexpectedEnd => "expected flag but got end of regex"
  | lookAroundUnsupported =>
    "look-around, including look-ahead and look-behind, is not supported"
  | backreferenceUnsupported => "backreferences are not supported"
  | repetitionMissing => "repetition operator missing expression"
  | repetitionUnclosed => "unclosed counted repetition"
  | repetitionEmpty => "repetition quantifier expects a valid decimal"
  | repetitionOrder => "invalid repetition count range, the start must be <= the end"
  | decimalInvalid => "decimal literal invalid"
  | escapeUnexpectedEnd => "incomplete escape sequence, reached end of pattern prematurely"
  | escapeUnrecognized => "unrecognized escape sequence"
  | hexEmpty => "hexadecimal literal empty"
  | hexDigit => "invalid hexadecimal digit"
  | hexValue => "hexadecimal literal is not a Unicode scalar value"
  | classUnclosed => "unclosed character class"
  | classEscape => "invalid escape sequence found in character class"
  | classRangeOrder => "invalid character class range, the start must be <= the end"
  | classRangeLiteral => "invalid range boundary, must be a literal"
  | propertyInvalid => "invalid Unicode character class"
  | propertyNotFound => "Unicode property not found"
  | propertyValueNotFound => "Unicode property value not found"
  | wordBoundaryUnclosed =>
    "special word boundary assertion is either unclosed or contains an invalid character"
  | wordBoundaryUnrecognized =>
    "unrecognized special word boundary assertion, valid choices are: start, end, " ++
      "start-half or end-half"
  | wordBoundaryUnexpectedEnd =>
    "found either the beginning of a special word boundary or a bounded repetition on a \\b " ++
      "with an opening brace, but no closing brace"
  | nestLimit limit =>
    "exceed the maximum number of nested parentheses/brackets (" ++ toString limit ++ ")"
  | unicodeNotAllowed => "Unicode not allowed here"
  | invalidUtf8 => "pattern can match invalid UTF-8"

end Concord.Regex
