import Concord.Proofs.Scope.Under
import Concord.Scope.Document

/-!
# Paths

The path of a declaration is a text such as `repository.sums.patterns[0]`.  It stands for the steps
that lead from the root to the object that declares: at each step a container, and in it the key or
the number of a rule.

* `pathTo` — the path of steps.  The root itself has the path `scopeName`.
* `readPath` — the steps of a path, read from the parts between its dots.
* `readPath_pathTo` — the steps can be read back if no key among them has a dot.
-/

set_option autoImplicit false

namespace Concord

/-- A step from an object to a rule in one of its containers. -/
structure PathStep where
  container : Container
  slot : Slot
deriving DecidableEq, Repr

/-! ## Writing -/

/-- The step as it stands in a path. -/
def PathStep.label (s : PathStep) : String := s.container.label ++ s.slot.label

/-- How a path goes on behind an object. -/
def pathOn : List PathStep → String
  | [] => ""
  | s :: steps => "." ++ s.label ++ pathOn steps

/-- The path of the object that steps lead to from the root. -/
def pathTo : List PathStep → String
  | [] => "scopeName"
  | s :: steps => s.label ++ pathOn steps

/-! ## Reading -/

/-- The number in a part such as `patterns[3]`. -/
def patternNumber? (part : List Char) : Option Nat := do
  let rest ← part.dropPrefix? "patterns[".toList
  let digits ← rest.dropSuffix? "]".toList
  if digits.all Char.isDigit then some (Nat.ofDigitChars 10 digits 0) else none

/-- The container of rules with keys that has a name. -/
def mapNamed? (part : List Char) : Option Container :=
  [.captures, .beginCaptures, .endCaptures, .whileCaptures, .repository, .injections].find?
    fun c : Container ↦ c.label.toList = part

/-- Reads steps from the parts of a path.  The part behind the name of a map is a key, whatever it
looks like. -/
def readSteps : List (List Char) → Option (List PathStep)
  | [] => some []
  | part :: parts =>
    match patternNumber? part with
    | some i => (⟨.patterns, .index i⟩ :: ·) <$> readSteps parts
    | none =>
      match mapNamed? part, parts with
      | some c, k :: parts => (⟨c, .key (String.ofList k)⟩ :: ·) <$> readSteps parts
      | _, _ => none

/-- Reads the steps of a path. -/
def readPath (path : String) : Option (List PathStep) :=
  if path = "scopeName" then some [] else readSteps (segments path)

example : readPath "repository.patterns[3].patterns[12].captures." =
    some [⟨.repository, .key "patterns[3]"⟩, ⟨.patterns, .index 12⟩, ⟨.captures, .key ""⟩] := by
  decide +kernel

/-! ## The parts of a step -/

namespace PathStep

/-- A step that can be read back: patterns are numbered, and all other rules have keys without
dots. -/
inductive IsPlain : PathStep → Prop
  | index (i : Nat) : IsPlain ⟨.patterns, .index i⟩
  | key (c : Container) (k : String) (hc : c ≠ .patterns) (hk : '.' ∉ k.toList) :
      IsPlain ⟨c, .key k⟩

/-- The parts of a path that the step is written as. -/
def parts (s : PathStep) : List (List Char) :=
  match s.slot with
  | .index _ => [s.label.toList]
  | .key k => [s.container.label.toList, k.toList]

end PathStep

theorem dot_notMem_label (c : Container) : '.' ∉ c.label.toList := by
  cases c <;> decide

theorem toList_label_index (i : Nat) :
    (PathStep.label ⟨.patterns, .index i⟩).toList =
      "patterns[".toList ++ (i.repr.toList ++ "]".toList) := by
  simp [PathStep.label, Slot.label, Container.label]

theorem toList_label_key (c : Container) (k : String) :
    (PathStep.label ⟨c, .key k⟩).toList = c.label.toList ++ '.' :: k.toList := by
  simp [PathStep.label, Slot.label]

theorem dot_notMem_label_index (i : Nat) :
    '.' ∉ (PathStep.label ⟨.patterns, .index i⟩).toList := by
  rw [toList_label_index, List.mem_append, List.mem_append]
  rintro (h | h | h)
  · exact absurd h (by decide)
  · rw [Nat.toList_repr] at h
    exact absurd (Nat.isDigit_of_mem_toDigits (by decide) (by decide) h) (by decide)
  · exact absurd h (by decide)

theorem splitOn_dot_eq_singleton {part : List Char} (h : '.' ∉ part) :
    part.splitOn '.' = [part] := by
  rw [List.splitOn_eq_splitOnP, List.splitOnP_eq_singleton]
  intro c hc
  exact beq_false_of_ne (ne_of_mem_of_not_mem hc h)

theorem splitOn_dot_append {part : List Char} (h : '.' ∉ part) (cs : List Char) :
    (part ++ '.' :: cs).splitOn '.' = part :: cs.splitOn '.' := by
  rw [List.splitOn_eq_splitOnP, List.splitOn_eq_splitOnP,
    List.splitOnP_append_cons_of_forall_mem _ _ (by simp)]
  intro c hc
  exact beq_false_of_ne (ne_of_mem_of_not_mem hc h)

namespace PathStep

variable {s : PathStep}

theorem splitOn_label (h : s.IsPlain) : s.label.toList.splitOn '.' = s.parts := by
  cases h with
  | index i => exact splitOn_dot_eq_singleton (dot_notMem_label_index i)
  | key c k hc hk =>
    rw [toList_label_key, splitOn_dot_append (dot_notMem_label c), splitOn_dot_eq_singleton hk]
    rfl

theorem splitOn_label_append (h : s.IsPlain) (cs : List Char) :
    (s.label.toList ++ '.' :: cs).splitOn '.' = s.parts ++ cs.splitOn '.' := by
  cases h with
  | index i => exact splitOn_dot_append (dot_notMem_label_index i) cs
  | key c k hc hk =>
    rw [toList_label_key, List.append_assoc, List.cons_append,
      splitOn_dot_append (dot_notMem_label c), splitOn_dot_append hk]
    rfl

end PathStep

/-- The parts of a path are those of its steps. -/
theorem segments_pathTo {s : PathStep} {steps : List PathStep}
    (h : ∀ s' ∈ s :: steps, s'.IsPlain) :
    segments (pathTo (s :: steps)) = (s :: steps).flatMap PathStep.parts := by
  rw [segments, pathTo, String.toList_append]
  induction steps generalizing s with
  | nil =>
    simp only [pathOn, String.toList_empty, List.append_nil, List.flatMap_cons, List.flatMap_nil]
    exact PathStep.splitOn_label (h s List.mem_cons_self)
  | cons s' steps ih =>
    obtain ⟨hs, hsteps⟩ := List.forall_mem_cons.mp h
    have hon : (pathOn (s' :: steps)).toList =
        '.' :: (s'.label.toList ++ (pathOn steps).toList) := by
      simp [pathOn]
    rw [hon, PathStep.splitOn_label_append hs, ih hsteps]
    rfl

/-! ## Reading what has been written -/

theorem patternNumber?_label (i : Nat) :
    patternNumber? (PathStep.label ⟨.patterns, .index i⟩).toList = some i := by
  have hrest : (PathStep.label ⟨.patterns, .index i⟩).toList.dropPrefix? "patterns[".toList =
      some (i.repr.toList ++ "]".toList) :=
    List.dropPrefix?_eq_some_iff.mpr ⟨_, toList_label_index i, BEq.rfl⟩
  have hdigits : (i.repr.toList ++ "]".toList).dropSuffix? "]".toList = some i.repr.toList :=
    List.dropSuffix?_eq_some_iff.mpr ⟨_, rfl, BEq.rfl⟩
  have hall : (Nat.toDigits 10 i).all Char.isDigit = true :=
    List.all_eq_true.mpr fun c hc ↦ Nat.isDigit_of_mem_toDigits (by decide) (by decide) hc
  rw [patternNumber?, hrest, Option.bind_eq_bind, Option.bind_some, hdigits, Option.bind_some,
    Nat.toList_repr, if_pos hall, Nat.ofDigitChars_toDigits (by decide) (by decide)]

theorem patternNumber?_label_map {c : Container} (hc : c ≠ .patterns) :
    patternNumber? c.label.toList = none := by
  cases c <;> first | contradiction | decide +kernel

theorem mapNamed?_label {c : Container} (hc : c ≠ .patterns) :
    mapNamed? c.label.toList = some c := by
  cases c <;> first | contradiction | decide +kernel

/-- Steps are read from their parts: the first part of a step tells how many there are. -/
theorem readSteps_parts {steps : List PathStep} (h : ∀ s ∈ steps, s.IsPlain) :
    readSteps (steps.flatMap PathStep.parts) = some steps := by
  induction steps with
  | nil => rfl
  | cons s steps ih =>
    obtain ⟨hs, hsteps⟩ := List.forall_mem_cons.mp h
    rw [List.flatMap_cons]
    cases hs with
    | index i =>
      rw [PathStep.parts, List.singleton_append]
      unfold readSteps
      simp only [patternNumber?_label, ih hsteps]
      rfl
    | key c k hc hk =>
      rw [PathStep.parts, List.cons_append, List.singleton_append]
      unfold readSteps
      simp only [patternNumber?_label_map hc, mapNamed?_label hc, ih hsteps, String.ofList_toList]
      rfl

/-- **The steps of a path can be read back** if no key among them has a dot. -/
theorem readPath_pathTo {steps : List PathStep} (h : ∀ s ∈ steps, s.IsPlain) :
    readPath (pathTo steps) = some steps := by
  cases steps with
  | nil => rfl
  | cons s steps =>
    have hread : readSteps (segments (pathTo (s :: steps))) = some (s :: steps) := by
      rw [segments_pathTo h, readSteps_parts h]
    -- the path of the root is read as no steps at all
    have hroot : readSteps (segments "scopeName") = none := by decide +kernel
    rw [readPath, if_neg ?_, hread]
    intro heq
    rw [heq, hroot] at hread
    contradiction

end Concord
