import Mathlib.Computability.Language

/-!
# Words of formal languages

What the development needs to know about languages in general: how the words of a star are taken
apart, and that a property of all letters is kept by what languages are built with.
-/

set_option autoImplicit false

open Computability

namespace Concord

variable {α : Type}

/-- A word of a star goes on in front of another. -/
theorem append_mem_kstar {L : Language α} {v w : List α} (hv : v ∈ L) (hw : w ∈ L∗) :
    v ++ w ∈ L∗ := by
  obtain ⟨words, rfl, hwords⟩ := Language.mem_kstar.mp hw
  rw [← List.flatten_cons]
  refine Language.join_mem_kstar fun u hu ↦ ?_
  rcases List.mem_cons.mp hu with rfl | hu
  · exact hv
  · exact hwords u hu

/-- Words of a star, taken off the front one by one. -/
theorem kstar_induction {L : Language α} {motive : List α → Prop} (nil : motive [])
    (append : ∀ v w, v ∈ L → w ∈ L∗ → motive w → motive (v ++ w)) {w : List α} (hw : w ∈ L∗) :
    motive w := by
  obtain ⟨words, rfl, hwords⟩ := Language.mem_kstar.mp hw
  induction words with
  | nil => exact nil
  | cons v words ih =>
    rw [List.flatten_cons]
    have hwords' : ∀ u ∈ words, u ∈ L := fun u hu ↦ hwords u (List.mem_cons_of_mem v hu)
    have hflat := Language.join_mem_kstar hwords'
    exact append v _ (hwords v List.mem_cons_self) hflat (ih hwords' hflat)

/-- A word between two others. -/
theorem exists_of_mem_enclosed {L : Language α} {u w x : List α}
    (hx : x ∈ ({u} : Language α) * L * {w}) : ∃ v ∈ L, x = u ++ v ++ w := by
  obtain ⟨_, hfront, _, rfl, rfl⟩ := Language.mem_mul.mp hx
  obtain ⟨_, rfl, v, hv, rfl⟩ := Language.mem_mul.mp hfront
  exact ⟨v, hv, rfl⟩

/-! ## Letters -/

/-- Every letter of every word of the language has the property. -/
def EachLetter (p : α → Prop) (L : Language α) : Prop := ∀ w ∈ L, ∀ a ∈ w, p a

variable {p : α → Prop} {L M : Language α}

theorem eachLetter_one : EachLetter p 1 := by
  intro w hw a ha
  rw [(Language.mem_one w).mp hw] at ha
  exact absurd ha List.not_mem_nil

theorem eachLetter_singleton {w : List α} (h : ∀ a ∈ w, p a) :
    EachLetter p ({w} : Set (List α)) := by
  rintro w rfl
  exact h

namespace EachLetter

theorem mul (hL : EachLetter p L) (hM : EachLetter p M) : EachLetter p (L * M) := by
  intro w hw a ha
  obtain ⟨u, hu, v, hv, rfl⟩ := Language.mem_mul.mp hw
  rcases List.mem_append.mp ha with ha | ha
  · exact hL u hu a ha
  · exact hM v hv a ha

theorem add (hL : EachLetter p L) (hM : EachLetter p M) : EachLetter p (L + M) := by
  intro w hw
  rcases (Language.mem_add L M w).mp hw with hw | hw
  · exact hL w hw
  · exact hM w hw

theorem kstar (hL : EachLetter p L) : EachLetter p L∗ := by
  intro w hw
  refine kstar_induction (motive := fun w ↦ ∀ a ∈ w, p a) (by simp) ?_ hw
  intro u v hu _ ih a ha
  rcases List.mem_append.mp ha with ha | ha
  · exact hL u hu a ha
  · exact ih a ha

end EachLetter

end Concord
