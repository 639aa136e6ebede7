import Concord.Diagnostic.Basic

/-!
# Showing diagnostics

Diagnostics are shown as lines, one for each, or as annotated excerpts of the source under a title
line, with a line at the end that counts them.  Of the excerpts only the titles are made here.
-/

set_option autoImplicit false

namespace Concord.Diagnostic

/-- One line for each diagnostic, behind the name of the file if there is one. -/
def lines (path : Option String) (ds : List Diagnostic) : String :=
  let front := (path.map (· ++ ": ")).getD ""
  String.intercalate "\n" (ds.map fun d ↦ front ++ d.describe)

/-- How a character stands in a title: a tab takes four columns, other control characters are
shown by the symbols for them, and characters that change the direction of text are blotted
out. -/
def titleChar (c : Char) : String :=
  let n := c.toNat
  if c = '\t' then "    "
  else if c = '\n' then "\n"
  else if n < 0x20 then (Char.ofNat (0x2400 + n)).toString
  else if n = 0x7F then "\u2421"
  else if n = 0x200D then ""
  else if (0x202A ≤ n ∧ n ≤ 0x202E) ∨ (0x2066 ≤ n ∧ n ≤ 0x2069) then "\uFFFD"
  else c.toString

/-- The title of a diagnostic.  What a message holds behind a line break is not part of it. -/
def title (d : Diagnostic) : String :=
  d.severity.label ++ ": " ++
    String.join ((d.message.toList.takeWhile (· ≠ '\n')).map titleChar)

/-- A number of things, unless there are none. -/
def countPhrase? (n : Nat) (noun : String) : Option String :=
  match n with
  | 0 => none
  | 1 => some ("1 " ++ noun)
  | n => some (toString n ++ " " ++ noun ++ "s")

/-- The line that counts the diagnostics of a file. -/
def countLine (path : Option String) (ds : List Diagnostic) : String :=
  let counts := [countPhrase? (count .error ds) "error",
    countPhrase? (count .warning ds) "warning"].filterMap id
  (path.map (· ++ ": ")).getD "" ++ String.intercalate ", " counts

/-- The lines of annotated excerpts that are not part of an excerpt: the titles, unless they are
coloured, and the count. -/
def headlines (path : Option String) (colored : Bool) (ds : List Diagnostic) : List String :=
  if ds.isEmpty then []
  else (if colored then [] else ds.map title) ++ [countLine path ds]

end Concord.Diagnostic
