/-!
# Escapes in query strings

Within a string literal a backslash stands before a character that it changes: `n`, `t`, `r` and
`0` become control characters, and any other character stands for itself.
-/

set_option autoImplicit false

namespace Concord.Query

/-- What a character stands for behind a backslash. -/
def escapedChar (c : Char) : Char :=
  match c with
  | 'n' => '\n'
  | 't' => '\t'
  | 'r' => '\r'
  | '0' => '\x00'
  | c => c

/-- The text that the body of a literal stands for.  A backslash at the very end is kept. -/
def unescape : List Char → List Char
  | [] => []
  | c :: cs =>
    if c = '\\' then
      match cs with
      | [] => ['\\']
      | d :: ds => escapedChar d :: unescape ds
    else c :: unescape cs

end Concord.Query
