import Concord.Json.Value

/-!
# Writing JSON

A value is written on one line without blanks, or over several lines with an indentation of two
blanks for each level.  Members stand in the order in which the value has them.
-/

set_option autoImplicit false

namespace Concord.Json

/-- A digit of a hexadecimal number. -/
def hexDigit (n : Nat) : Char := Nat.digitChar n

/-- How a character stands in a string. -/
def escapeChar (c : Char) : List Char :=
  match c with
  | '"' => ['\\', '"']
  | '\\' => ['\\', '\\']
  | '\x08' => ['\\', 'b']
  | '\x0c' => ['\\', 'f']
  | '\n' => ['\\', 'n']
  | '\r' => ['\\', 'r']
  | '\t' => ['\\', 't']
  | c =>
    if c.toNat < 0x20 then ['\\', 'u', '0', '0', hexDigit (c.toNat / 16), hexDigit (c.toNat % 16)]
    else [c]

/-- A string with its quotes. -/
def writeString (s : String) : String :=
  "\"" ++ String.ofList (s.toList.flatMap escapeChar) ++ "\""

/-- A number. -/
def Number.write : Number → String
  | natural n => toString n
  | negative n => "-" ++ toString n
  | float x => Decimal.jsonLayout.write x

namespace Value

mutual

/-- The value on one line. -/
def compact : Value → String
  | null => "null"
  | bool true => "true"
  | bool false => "false"
  | number n => n.write
  | string s => writeString s
  | list items => "[" ++ compactItems items ++ "]"
  | object members => "\x7b" ++ compactMembers members ++ "\x7d"

/-- Values with commas between them. -/
def compactItems : List Value → String
  | [] => ""
  | [v] => compact v
  | v :: w :: vs => compact v ++ "," ++ compactItems (w :: vs)

/-- Members with commas between them. -/
def compactMembers : List (String × Value) → String
  | [] => ""
  | [(k, v)] => writeString k ++ ":" ++ compact v
  | (k, v) :: m :: ms => writeString k ++ ":" ++ compact v ++ "," ++ compactMembers (m :: ms)

end

/-- A line break and the indentation of a level. -/
def newline (level : Nat) : String := "\n" ++ String.ofList (List.replicate (2 * level) ' ')

mutual

/-- The value over several lines, the first of which is already indented. -/
def pretty (level : Nat) : Value → String
  | null => "null"
  | bool true => "true"
  | bool false => "false"
  | number n => n.write
  | string s => writeString s
  | list [] => "[]"
  | list (v :: vs) => "[" ++ prettyItems (level + 1) (v :: vs) ++ newline level ++ "]"
  | object [] => "\x7b\x7d"
  | object (m :: ms) => "\x7b" ++ prettyMembers (level + 1) (m :: ms) ++ newline level ++ "\x7d"

/-- Values on lines of their own. -/
def prettyItems (level : Nat) : List Value → String
  | [] => ""
  | [v] => newline level ++ pretty level v
  | v :: w :: vs => newline level ++ pretty level v ++ "," ++ prettyItems level (w :: vs)

/-- Members on lines of their own. -/
def prettyMembers (level : Nat) : List (String × Value) → String
  | [] => ""
  | [(k, v)] => newline level ++ writeString k ++ ": " ++ pretty level v
  | (k, v) :: m :: ms =>
    newline level ++ writeString k ++ ": " ++ pretty level v ++ "," ++ prettyMembers level (m :: ms)

end

end Value

end Concord.Json
