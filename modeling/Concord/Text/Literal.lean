/-!
# Bodies of quoted literals

A literal runs from a quote to the next quote that no backslash escapes.  A backslash escapes any
character but a line break.  Where a literal may not span lines, a line break ends it unclosed.
-/

set_option autoImplicit false

namespace Concord

/-- Where the body of a literal ends, given what follows its opening quote: the characters of the
body, whether the closing quote follows them, and what comes after.  An unclosed body is the
longest one that could still have been closed. -/
def literalBody (quote : Char) (multiline : Bool) : List Char → List Char × Bool × List Char
  | [] => ([], false, [])
  | c :: cs =>
    if c = quote then ([], true, cs)
    else if c = '\\' then
      match cs with
      | [] => (['\\'], false, [])
      | d :: ds =>
        if d = '\n' then (['\\'], false, d :: ds)
        else
          let (body, closed, rest) := literalBody quote multiline ds
          ('\\' :: d :: body, closed, rest)
    else if c = '\n' ∧ !multiline then ([], false, c :: cs)
    else
      let (body, closed, rest) := literalBody quote multiline cs
      (c :: body, closed, rest)

theorem literalBody_append (quote : Char) (multiline : Bool) (cs : List Char) :
    (literalBody quote multiline cs).1 ++
      (if (literalBody quote multiline cs).2.1 then [quote] else []) ++
      (literalBody quote multiline cs).2.2 = cs := by
  fun_induction literalBody quote multiline cs <;> simp_all

end Concord
