import Concord.Text.Span

/-!
# Lines of a text
-/

set_option autoImplicit false

namespace Concord

/-- The number of line breaks among the first `offset` bytes. -/
def newlinesBefore : (offset : Nat) → List Char → Nat
  | _, [] => 0
  | offset, c :: cs =>
    if offset = 0 then 0
    else (if c = '\n' then 1 else 0) + newlinesBefore (offset - c.utf8Size) cs

/-- Up to the end of a front of the text, the line breaks are those of the front. -/
theorem newlinesBefore_append (before after : List Char) :
    newlinesBefore (utf8Length before) (before ++ after) = before.count '\n' := by
  induction before with
  | nil => cases after <;> rfl
  | cons c before ih =>
    have hc := c.utf8Size_pos
    rw [utf8Length_cons, List.cons_append, newlinesBefore, if_neg (by omega),
      Nat.add_sub_cancel_left, ih, List.count_cons, Nat.add_comm]
    simp

theorem newlinesBefore_le {offset offset' : Nat} (h : offset ≤ offset') (cs : List Char) :
    newlinesBefore offset cs ≤ newlinesBefore offset' cs := by
  induction cs generalizing offset offset' with
  | nil => exact Nat.le_refl 0
  | cons c cs ih =>
    rw [newlinesBefore, newlinesBefore]
    by_cases hzero : offset = 0
    · rw [if_pos hzero]
      exact Nat.zero_le _
    · have hne : offset' ≠ 0 := by omega
      rw [if_neg hzero, if_neg hne]
      exact Nat.add_le_add_left (ih (Nat.sub_le_sub_right h _)) _

/-- The number of the line, counted from one, in which a byte offset stands. -/
def lineOf (source : String) (offset : Nat) : Nat := newlinesBefore offset source.toList + 1

theorem lineOf_le {offset offset' : Nat} (source : String) (h : offset ≤ offset') :
    lineOf source offset ≤ lineOf source offset' :=
  Nat.succ_le_succ (newlinesBefore_le h source.toList)

end Concord
