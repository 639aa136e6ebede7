/-!
# Runs

A run is the longest front of a list whose elements have a property.  Where it ends depends on one
element behind it, which is all that the lexer and the productions look at.
-/

set_option autoImplicit false

namespace Concord

variable {α : Type} {p : α → Bool}

/-- A run is what has the property, up to what has not. -/
theorem run_eq {as bs : List α} (has : ∀ a ∈ as, p a = true) (hbs : ∀ b ∈ bs.head?, p b = false) :
    (as ++ bs).takeWhile p = as ∧ (as ++ bs).dropWhile p = bs := by
  rw [List.takeWhile_append_of_pos has, List.dropWhile_append_of_pos has]
  cases bs with
  | nil => exact ⟨List.append_nil as, rfl⟩
  | cons b bs =>
    have hb : ¬ p b = true := by simp [hbs b rfl]
    rw [List.takeWhile_cons_of_neg hb, List.dropWhile_cons_of_neg hb]
    exact ⟨List.append_nil as, rfl⟩

/-- A run ends where it ended, if it does not go on with what follows the list. -/
theorem run_append {as bs : List α} (h : as.dropWhile p = [] → ∀ b ∈ bs.head?, p b = false) :
    (as ++ bs).takeWhile p = as.takeWhile p ∧ (as ++ bs).dropWhile p = as.dropWhile p ++ bs := by
  have hrun := List.all_eq_true.mp (List.all_takeWhile (p := p) (l := as))
  have hstop : ∀ b ∈ (as.dropWhile p ++ bs).head?, p b = false := by
    intro b hb
    cases hdrop : as.dropWhile p with
    | nil =>
      rw [hdrop] at hb
      exact h hdrop b hb
    | cons c cs =>
      have hhead := List.head?_dropWhile_not p as
      rw [hdrop] at hb hhead
      rw [← Option.some_inj.mp hb]
      simpa using hhead
  have hsplit : as ++ bs = as.takeWhile p ++ (as.dropWhile p ++ bs) := by
    rw [← List.append_assoc, List.takeWhile_append_dropWhile]
  rw [hsplit]
  exact run_eq hrun hstop

end Concord
