import Mathlib.Data.List.MinMax
import Mathlib.Order.Bounds.Basic
import Concord.Proofs.Text.EditDistance

/-!
# A suggestion is the first of the nearest candidates

`suggest` goes over the candidates once and keeps the best one so far.  What it finds can be said
without the walk, and by the least number of edits instead of the table that counts them.

* `InReach` and `Closer` — which candidates can be suggested at all, and which of two is preferred.
* `FirstNearest` — no candidate is closer, and all that stand before it are farther away.  There is
  at most one such candidate (`FirstNearest.unique`).
* `suggest_eq_argmin` — the walk looks for a least distance among the candidates in reach, so only
  these matter (`Padded.filter_eq`), and of several with the least distance the first is found.

`suggest_firstNearest` puts these together.
-/

set_option autoImplicit false

namespace Concord

/-! ## Distances -/

/-- The least number of edits that turn one text into another. -/
def IsDistance (a b : String) (n : Nat) : Prop := IsLeast {n | Edits n a.toList b.toList} n

theorem isDistance_editDistance (a b : String) : IsDistance a b (editDistance a b) := by
  have h := isLeast_cost a.toList.reverse b.toList.reverse
  rw [IsDistance, editDistance_eq_cost]
  simpa only [Edits.reverse_iff] using h

theorem IsDistance.eq_editDistance {a b : String} {n : Nat} (h : IsDistance a b n) :
    n = editDistance a b :=
  h.unique (isDistance_editDistance a b)

theorem exists_isDistance_iff {a b : String} {P : Nat → Prop} :
    (∃ n, P n ∧ IsDistance a b n) ↔ P (editDistance a b) :=
  ⟨fun ⟨_, hn, h⟩ ↦ h.eq_editDistance ▸ hn, fun h ↦ ⟨_, h, isDistance_editDistance a b⟩⟩

/-! ## Candidates -/

/-- A candidate is another text than the input, and at most two edits away from it. -/
def InReach (input c : String) : Prop := c ≠ input ∧ ∃ n, n ≤ 2 ∧ IsDistance c input n

/-- A candidate is strictly closer to the input than another. -/
def Closer (input c d : String) : Prop :=
  ∃ m n, IsDistance c input m ∧ IsDistance d input n ∧ m < n

/-- A candidate in reach than which no other text among the candidates is closer, and that all
other texts before it are farther away than. -/
structure FirstNearest (input : String) (candidates : List String) (c : String) : Prop where
  mem : c ∈ candidates
  inReach : InReach input c
  nearest : ∀ d ∈ candidates, d ≠ input → ¬ Closer input d c
  first : ∀ front back, candidates = front ++ c :: back → c ∉ front →
    ∀ d ∈ front, d = input ∨ Closer input c d

/-- Candidates among which more have been put anywhere that are the input or too far from it. -/
inductive Padded (input : String) : List String → List String → Prop
  | nil : Padded input [] []
  | keep {cs ds : List String} (c : String) (h : Padded input cs ds) :
    Padded input (c :: cs) (c :: ds)
  | insert {cs ds : List String} (d : String) (hd : d = input ∨ ∃ n, 2 < n ∧ IsDistance d input n)
    (h : Padded input cs ds) : Padded input cs (d :: ds)

section Candidates

variable {input c d : String} {cs ds : List String}

theorem inReach_iff : InReach input c ↔ c ≠ input ∧ editDistance c input ≤ 2 := by
  rw [InReach, exists_isDistance_iff]

theorem closer_iff : Closer input c d ↔ editDistance c input < editDistance d input := by
  constructor
  · rintro ⟨m, n, hm, hn, hlt⟩
    rwa [hm.eq_editDistance, hn.eq_editDistance] at hlt
  · exact fun h ↦ ⟨_, _, isDistance_editDistance c input, isDistance_editDistance d input, h⟩

instance (input c : String) : Decidable (InReach input c) := decidable_of_iff _ inReach_iff.symm

/-- What has been put among the candidates is not in reach. -/
theorem Padded.filter_eq (h : Padded input cs ds) :
    ds.filter (InReach input ·) = cs.filter (InReach input ·) := by
  induction h with
  | nil => rfl
  | keep c _ ih => rw [List.filter_cons, List.filter_cons, ih]
  | insert d hd _ ih =>
    have hout : ¬ InReach input d := by
      rw [exists_isDistance_iff] at hd
      rw [inReach_iff]
      rintro ⟨hne, hle⟩
      exact hd.elim hne (by omega)
    rw [List.filter_cons_of_neg (by simpa using hout), ih]

/-- Of two candidates that are both the first of the nearest, neither can stand before the other. -/
theorem FirstNearest.unique (hc : FirstNearest input cs c) (hd : FirstNearest input cs d) :
    c = d := by
  obtain ⟨front, back, hsplit, hfront⟩ := List.eq_append_cons_of_mem hc.mem
  obtain ⟨front', back', hsplit', hfront'⟩ := List.eq_append_cons_of_mem hd.mem
  have hdfront : d ∉ front := fun hmem ↦
    (hc.first front back hsplit hfront d hmem).elim hd.inReach.1 (hd.nearest c hc.mem hc.inReach.1)
  have hcfront : c ∉ front' := fun hmem ↦
    (hd.first front' back' hsplit' hfront' c hmem).elim hc.inReach.1
      (hc.nearest d hd.mem hd.inReach.1)
  -- what both fronts lack is the first candidate behind the shorter of them
  rw [hsplit] at hsplit'
  rcases List.append_eq_append_iff.mp hsplit' with ⟨mid, rfl, hmid⟩ | ⟨mid, rfl, hmid⟩
  · cases mid with
    | nil => exact (List.cons.inj hmid).1
    | cons x mid =>
      obtain ⟨rfl, -⟩ := List.cons.inj hmid
      exact absurd (List.mem_append_right front List.mem_cons_self) hcfront
  · cases mid with
    | nil => exact (List.cons.inj hmid).1.symm
    | cons x mid =>
      obtain ⟨rfl, -⟩ := List.cons.inj hmid
      exact absurd (List.mem_append_right front' List.mem_cons_self) hdfront

end Candidates

/-! ## The walk -/

/-- The best candidate so far is the first one at the least distance of those in reach. -/
theorem foldl_nearer_eq_argmin (input : String) (cs : List String) :
    cs.foldl (nearer input) none =
      ((cs.filter (InReach input ·)).argmin (editDistance · input)).map
        fun c ↦ (editDistance c input, c) := by
  induction cs using List.reverseRecOn with
  | nil => rfl
  | append_singleton cs c ih =>
    rw [List.foldl_append, List.foldl_cons, List.foldl_nil, ih, List.filter_append, nearer.eq_def]
    by_cases hc : InReach input c
    · have hnot : ¬ (c = input ∨ maxSuggestionDistance < editDistance c input) := by
        rw [inReach_iff] at hc
        exact not_or.mpr ⟨hc.1, Nat.not_lt_of_le hc.2⟩
      rw [if_neg hnot, List.filter_cons_of_pos (by simpa using hc), List.filter_nil,
        List.argmin_concat]
      cases (cs.filter (InReach input ·)).argmin (editDistance · input) with
      | none => rfl
      | some best =>
        dsimp only [Option.map_some]
        split <;> rfl
    · have hout : c = input ∨ maxSuggestionDistance < editDistance c input := by
        rw [inReach_iff, not_and_or, not_not, Nat.not_le] at hc
        exact hc
      rw [if_pos hout, List.filter_cons_of_neg (by simpa using hc), List.filter_nil,
        List.append_nil]

/-- **The walk looks for a least distance** among the candidates in reach. -/
theorem suggest_eq_argmin (input : String) (cs : List String) :
    suggest input cs = (cs.filter (InReach input ·)).argmin (editDistance · input) := by
  rw [suggest, foldl_nearer_eq_argmin]
  simp [Function.comp_def]

/-- What is found is the first of the nearest candidates. -/
theorem firstNearest_of_suggest {input c : String} {cs : List String}
    (h : suggest input cs = some c) : FirstNearest input cs c := by
  rw [suggest_eq_argmin, List.argmin_eq_some_iff] at h
  obtain ⟨hmem, hle, hfirst⟩ := h
  obtain ⟨hmem, hreach⟩ := List.mem_filter.mp hmem
  have hreach : InReach input c := by simpa using hreach
  have hin {d : String} (hd : d ≠ input) (hlt : editDistance d input ≤ editDistance c input) :
      InReach input d :=
    inReach_iff.mpr ⟨hd, Nat.le_trans hlt (inReach_iff.mp hreach).2⟩
  refine ⟨hmem, hreach, fun d hd hne hcloser ↦ ?_, fun front back hsplit hfront d hd ↦ ?_⟩
  · rw [closer_iff] at hcloser
    have hd : d ∈ cs.filter (InReach input ·) :=
      List.mem_filter.mpr ⟨hd, decide_eq_true (hin hne (Nat.le_of_lt hcloser))⟩
    exact absurd (hle d hd) (Nat.not_le_of_lt hcloser)
  · by_cases hne : d = input
    · exact .inl hne
    · refine .inr (closer_iff.mpr (Nat.lt_of_not_le fun hlt ↦ ?_))
      -- a candidate before the first place of `c` would come first in the filtered list, too
      have hd : d ∈ front.filter (InReach input ·) :=
        List.mem_filter.mpr ⟨hd, decide_eq_true (hin hne hlt)⟩
      have hc : c ∉ front.filter (InReach input ·) := fun h ↦ hfront (List.mem_filter.mp h).1
      have hidx := hfirst d (by
        rw [hsplit, List.filter_append]
        exact List.mem_append_left _ hd) hlt
      rw [hsplit, List.filter_append, List.filter_cons_of_pos (by simpa using hreach),
        List.idxOf_append_of_notMem hc, List.idxOf_append_of_mem hd, List.idxOf_cons_self] at hidx
      have hlength := List.idxOf_lt_length_of_mem hd
      omega

theorem exists_suggest_iff {input : String} {cs : List String} :
    (∃ c, suggest input cs = some c) ↔ ∃ c ∈ cs, InReach input c := by
  rw [suggest_eq_argmin, ← Option.ne_none_iff_exists', ne_eq, List.argmin_eq_none,
    List.filter_eq_nil_iff]
  simp

theorem suggest_eq_some_iff {input c : String} {cs : List String} :
    suggest input cs = some c ↔ FirstNearest input cs c := by
  refine ⟨firstNearest_of_suggest, fun hc ↦ ?_⟩
  obtain ⟨d, hd⟩ := exists_suggest_iff.mpr ⟨c, hc.mem, hc.inReach⟩
  rw [hd, (firstNearest_of_suggest hd).unique hc]

/-- **A suggestion is the first of the nearest candidates**, and there is one exactly if some
candidate is in reach.  Candidates that are not in reach change nothing. -/
theorem suggest_firstNearest (input : String) (candidates : List String) :
    ((∃ c, suggest input candidates = some c) ↔ ∃ c ∈ candidates, InReach input c) ∧
      (∀ c, suggest input candidates = some c ↔ FirstNearest input candidates c) ∧
      ∀ more, Padded input candidates more → suggest input more = suggest input candidates := by
  refine ⟨exists_suggest_iff, fun c ↦ suggest_eq_some_iff, fun more h ↦ ?_⟩
  rw [suggest_eq_argmin, suggest_eq_argmin, h.filter_eq]

/-- Of three candidates in reach, one of them two edits away, the first of the others is suggested,
with and without candidates among them that are not in reach. -/
theorem suggest_firstNearest_padded :
    FirstNearest "rule" ["roles", "rulez", "rulex"] "rulez" ∧
      suggest "rule" ["rule", "roles", "ruling", "rulez", "rulex"] = some "rulez" := by
  obtain ⟨-, hfirst, hpadded⟩ := suggest_firstNearest "rule" ["roles", "rulez", "rulex"]
  have hsuggest : suggest "rule" ["roles", "rulez", "rulex"] = some "rulez" := by decide +kernel
  have hfar : 2 < editDistance "ruling" "rule" := by decide +kernel
  refine ⟨(hfirst _).mp hsuggest, ?_⟩
  rw [hpadded, hsuggest]
  exact .insert "rule" (.inl rfl) (.keep "roles"
    (.insert "ruling" (.inr (exists_isDistance_iff.mpr hfar)) (.keep "rulez" (.keep "rulex" .nil))))

end Concord
