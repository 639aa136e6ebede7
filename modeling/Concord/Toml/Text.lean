/-!
# Strings of a TOML document

A string stands between quotes or apostrophes, and between three of them it may have several lines.
Between quotes a backslash begins an escape.  Every reader takes the text behind the opening mark
and answers the characters of the string and the text behind it, or nothing if the string is not
well formed.
-/

set_option autoImplicit false

namespace Concord.Toml

/-- Whether a character may stand in a comment or a string: control characters may not, apart from
the tab. -/
def isTextChar (c : Char) : Bool := c == '\t' || (0x20 ≤ c.toNat && c.toNat != 0x7F)

/-- The value of a digit in bases up to sixteen. -/
def digit? (base : Nat) (c : Char) : Option Nat :=
  let n :=
    if c.isDigit then c.toNat - '0'.toNat
    else if 'a' ≤ c ∧ c ≤ 'f' then c.toNat - 'a'.toNat + 10
    else if 'A' ≤ c ∧ c ≤ 'F' then c.toNat - 'A'.toNat + 10
    else base
  if n < base then some n else none

/-- The value of digits. -/
def digitsValue? (base : Nat) (n : Nat) : List Char → Option Nat
  | [] => some n
  | c :: cs => do digitsValue? base (n * base + (← digit? base c)) cs

/-- The character that hexadecimal digits stand for. -/
def codePoint? (digits : List Char) : Option Char := do
  let n ← digitsValue? 16 0 digits
  if n.isValidChar then some (Char.ofNat n) else none

/-- The character that a letter behind a backslash stands for. -/
def letterEscape? : Char → Option Char
  | 'b' => some '\x08'
  | 't' => some '\t'
  | 'n' => some '\n'
  | 'f' => some '\x0c'
  | 'r' => some '\r'
  | '"' => some '"'
  | '\\' => some '\\'
  | _ => none

/-- Reads the escape behind a backslash. -/
def takeEscape : List Char → Option (Char × List Char)
  | 'u' :: cs =>
    if (cs.take 4).length = 4 then do return (← codePoint? (cs.take 4), cs.drop 4) else none
  | 'U' :: cs =>
    if (cs.take 8).length = 8 then do return (← codePoint? (cs.take 8), cs.drop 8) else none
  | c :: cs => do return (← letterEscape? c, cs)
  | [] => none

/-- The text behind a line break, if there is one in front. -/
def takeNewline? : List Char → Option (List Char)
  | '\n' :: cs => some cs
  | '\r' :: '\n' :: cs => some cs
  | _ => none

/-- A text without the line break in front of it. -/
def dropNewline (cs : List Char) : List Char := (takeNewline? cs).getD cs

/-- Blanks within a line. -/
def isBlank (c : Char) : Bool := c == ' ' || c == '\t'

/-- The text behind blanks and line breaks, in a number of steps. -/
def skipSpace : (steps : Nat) → List Char → List Char
  | 0, cs => cs
  | steps + 1, cs =>
    match cs with
    | [] => []
    | c :: rest =>
      if isBlank c then skipSpace steps rest
      else match takeNewline? (c :: rest) with
        | some rest => skipSpace steps rest
        | none => c :: rest

/-- The text behind a backslash that ends a line: line breaks and blanks up to the next other
character do not count. -/
def takeLineEnd? (cs : List Char) : Option (List Char) := do
  let rest ← takeNewline? (cs.dropWhile isBlank)
  return skipSpace rest.length rest

/-- A string in quotes, in a number of steps; `done` are its characters so far, latest first. -/
def takeQuoted : (steps : Nat) → (done : List Char) → List Char → Option (String × List Char)
  | 0, _, _ => none
  | steps + 1, done, cs =>
    match cs with
    | [] => none
    | '"' :: rest => some (String.ofList done.reverse, rest)
    | '\\' :: rest => do
      let (c, rest) ← takeEscape rest
      takeQuoted steps (c :: done) rest
    | c :: rest => if isTextChar c then takeQuoted steps (c :: done) rest else none

/-- A string in apostrophes. -/
def takeLiteral (done : List Char) : List Char → Option (String × List Char)
  | [] => none
  | '\x27' :: rest => some (String.ofList done.reverse, rest)
  | c :: rest => if isTextChar c then takeLiteral (c :: done) rest else none

/-- How many of a mark stand in front of a text, up to `most`. -/
def countFront (mark : Char) : (most : Nat) → List Char → Nat
  | 0, _ => 0
  | most + 1, c :: cs => if c = mark then countFront mark most cs + 1 else 0
  | _ + 1, [] => 0

/-- A string over several lines, in a number of steps.  Up to two marks that stand before the
closing ones belong to the string. -/
def takeLines (mark : Char) : (steps : Nat) → (done : List Char) → List Char →
    Option (String × List Char)
  | 0, _, _ => none
  | steps + 1, done, cs =>
    match cs with
    | [] => none
    | c :: rest =>
      if c = mark then
        let n := countFront mark 5 cs
        if n < 3 then takeLines mark steps (c :: done) rest
        else
          some (String.ofList (List.replicate (n - 3) mark ++ done).reverse, cs.drop n)
      else if c = '\\' ∧ mark = '"' then
        match takeLineEnd? rest with
        | some rest => takeLines mark steps done rest
        | none => do
          let (c, rest) ← takeEscape rest
          takeLines mark steps (c :: done) rest
      else
        match takeNewline? cs with
        | some rest => takeLines mark steps ('\n' :: done) rest
        | none => if isTextChar c then takeLines mark steps (c :: done) rest else none

/-- A string of one line. -/
def takeLine : List Char → Option (String × List Char)
  | '"' :: cs => takeQuoted (cs.length + 1) [] cs
  | '\x27' :: cs => takeLiteral [] cs
  | _ => none

/-- A string. -/
def takeString : List Char → Option (String × List Char)
  | '"' :: '"' :: '"' :: cs => takeLines '"' (cs.length + 1) [] (dropNewline cs)
  | '\x27' :: '\x27' :: '\x27' :: cs => takeLines '\x27' (cs.length + 1) [] (dropNewline cs)
  | cs => takeLine cs

end Concord.Toml
