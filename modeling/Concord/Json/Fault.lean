import Concord.Json.Number
import Concord.Text.Quoted

/-!
# What can be wrong with a JSON text

A `Cause` says what is wrong, and a `Fault` also after how many bytes reading stopped.  Messages
count lines from one, and columns by the bytes of the line that were read.
-/

set_option autoImplicit false

namespace Concord.Json

/-- What a value turned out to be. -/
inductive Shape where
  | null
  | bool (b : Bool)
  | number (n : Number)
  | string (s : String)
  | sequence
  | map
deriving Repr, Inhabited

/-- The value in a message. -/
def Shape.describe : Shape → String
  | null => "null"
  | bool true => "boolean `true`"
  | bool false => "boolean `false`"
  | number n => n.describe
  | string s => "string " ++ quoted s
  | sequence => "sequence"
  | map => "map"

/-- What is wrong with a text. -/
inductive Cause where
  | endInValue
  | endInList
  | endInObject
  | endInString
  | expectedColon
  | expectedListEnd
  | expectedObjectEnd
  | expectedWord
  | expectedValue
  | invalidEscape
  | invalidNumber
  | tooGreat
  | loneSurrogate
  | unfinishedSurrogate
  | controlCharacter
  | keyNotString
  | trailingComma
  | trailingText
  | tooDeep
  /-- A value of another shape than the reader asked for. -/
  | mistyped (found : Shape) (expected : String)
  /-- A field that an object does not have. -/
  | missing (field : String)
  /-- A field that an object has twice. -/
  | repeated (field : String)
deriving Repr, Inhabited

/-- What is wrong, in words. -/
def Cause.message : Cause → String
  | endInValue => "EOF while parsing a value"
  | endInList => "EOF while parsing a list"
  | endInObject => "EOF while parsing an object"
  | endInString => "EOF while parsing a string"
  | expectedColon => "expected `:`"
  | expectedListEnd => "expected `,` or `]`"
  | expectedObjectEnd => "expected `,` or `\x7d`"
  | expectedWord => "expected ident"
  | expectedValue => "expected value"
  | invalidEscape => "invalid escape"
  | invalidNumber => "invalid number"
  | tooGreat => "number out of range"
  | loneSurrogate => "lone leading surrogate in hex escape"
  | unfinishedSurrogate => "unexpected end of hex escape"
  | controlCharacter => "control character (\\u0000-\\u001F) found while parsing a string"
  | keyNotString => "key must be a string"
  | trailingComma => "trailing comma"
  | trailingText => "trailing characters"
  | tooDeep => "recursion limit exceeded"
  | mistyped found expected => "invalid type: " ++ found.describe ++ ", expected " ++ expected
  | missing field => "missing field `" ++ field ++ "`"
  | repeated field => "duplicate field `" ++ field ++ "`"

/-- What is wrong with a text, and after how many bytes reading stopped. -/
structure Fault where
  cause : Cause
  offset : Nat
deriving Repr, Inhabited

/-- The number of line breaks among the first `offset` bytes of a text, and the number of bytes
after the last of them. -/
def lineAndColumn (line column : Nat) : (offset : Nat) → List Char → Nat × Nat
  | offset, [] => (line, column + offset)
  | offset, c :: cs =>
    if offset < c.utf8Size then (line, column + offset)
    else if c = '\n' then lineAndColumn (line + 1) 0 (offset - 1) cs
    else lineAndColumn line (column + c.utf8Size) (offset - c.utf8Size) cs

/-- What is wrong and where, in words. -/
def Fault.message (source : String) (f : Fault) : String :=
  let (line, column) := lineAndColumn 1 0 f.offset source.toList
  f.cause.message ++ " at line " ++ toString line ++ " column " ++ toString column

end Concord.Json
