/-!
# Texts that are written from lexemes

To write a text, one writes its lexemes one behind the other, with any blanks around them.  Only
where a lexeme would go on with what comes next must there be a blank between the two.

`Spelling` says of a language what one has to know for that, and `Spelling.Writes` which texts are
written from which lexemes.  What a lexer makes of such texts is proved beside the lexer.
-/

set_option autoImplicit false

namespace Concord

/-- How the lexemes of a language are written. -/
structure Spelling (α : Type) where
  /-- The characters of a lexeme. -/
  text : α → List Char
  /-- Whether a lexeme goes on with a character, if that stands right behind it. -/
  absorbs : α → Char → Bool
  /-- Whether a character may stand between lexemes. -/
  isBlank : Char → Bool

namespace Spelling

variable {α : Type} (w : Spelling α)

/-- The text is written from the lexemes. -/
inductive Writes : List α → List Char → Prop
  | nil : Writes [] []
  | blank {c : Char} {as : List α} {cs : List Char} (hc : w.isBlank c = true) (h : Writes as cs) :
      Writes as (c :: cs)
  | cons {a : α} {as : List α} {cs : List Char} (hnext : ∀ c ∈ cs.head?, w.absorbs a c = false)
      (h : Writes as cs) : Writes (a :: as) (w.text a ++ cs)

/-- The lexemes with a character behind each of them. -/
def spread (blank : Char) (as : List α) : List Char := as.flatMap fun a ↦ w.text a ++ [blank]

variable {w}

/-- With a blank behind each of them, lexemes can always be told apart. -/
theorem writes_spread {blank : Char} (hblank : w.isBlank blank = true) {as : List α}
    (has : ∀ a ∈ as, w.absorbs a blank = false) : w.Writes as (w.spread blank as) := by
  induction as with
  | nil => exact .nil
  | cons a as ih =>
    have ih := ih fun b hb ↦ has b (List.mem_cons_of_mem a hb)
    rw [spread, List.flatMap_cons, List.append_assoc, List.singleton_append]
    refine .cons ?_ (.blank hblank ih)
    simpa using has a List.mem_cons_self

end Spelling

end Concord
