import Mathlib.Data.List.Basic
import Mathlib.Order.Defs.Unbundled
import Concord.Listing.Scopes
import Concord.Proofs.Grammar.Names

/-!
# Scopes under another

`isUnder` compares the characters of two scopes and looks at one more behind them.  What it decides
can be said of whole segments.

* `segments` — what stands between the dots of a scope, empty segments included.
* `isUnder_iff` — a scope is under another if the segments of the other are the first of its own.
  So this is a partial order (`isPartialOrder_isUnder`).
* `ScopeGrammar.pairwise_scopesUnder` — the scopes that are found stand in the order in which they
  were first declared.
* `scopesUnder_segments` — these put together, for the two functions that search by a front.
-/

set_option autoImplicit false

namespace Concord

/-! ## Segments -/

/-- What stands between the dots of a scope or of a path. -/
def segments (scope : String) : List (List Char) := scope.toList.splitOn '.'

theorem splitOn_dot_cons (c : Char) (cs : List Char) :
    (c :: cs).splitOn '.' =
      if c = '.' then [] :: cs.splitOn '.' else (cs.splitOn '.').modifyHead (c :: ·) := by
  rw [List.splitOn_eq_splitOnP, List.splitOn_eq_splitOnP, List.splitOnP_cons_eq_if_modifyHead]
  simp only [beq_iff_eq]

theorem exists_splitOn_dot_eq_cons (cs : List Char) :
    ∃ part parts, cs.splitOn '.' = part :: parts :=
  List.exists_cons_of_ne_nil (List.splitOn_ne_nil '.' cs)

theorem segments_injective {s t : String} (h : segments s = segments t) : s = t := by
  have hjoin := congrArg ['.'].intercalate h
  rwa [segments, segments, List.intercalate_splitOn, List.intercalate_splitOn,
    String.toList_inj] at hjoin

/-- A text has an empty first segment exactly if it is empty or begins with a dot. -/
theorem nil_prefix_splitOn_iff (cs : List Char) :
    [[]] <+: cs.splitOn '.' ↔ (cs.isEmpty || cs.head? == some '.') = true := by
  cases cs with
  | nil => simp
  | cons c cs =>
    obtain ⟨part, parts, hparts⟩ := exists_splitOn_dot_eq_cons cs
    rw [splitOn_dot_cons, hparts]
    by_cases hc : c = '.'
    · simp [hc]
    · simp [hc]

theorem isUnderChars_iff (scope front : List Char) :
    isUnderChars scope front = true ↔ front.splitOn '.' <+: scope.splitOn '.' := by
  fun_induction isUnderChars scope front with
  | case1 scope => exact (nil_prefix_splitOn_iff scope).symm
  | case2 b front =>
    obtain ⟨part, parts, hparts⟩ := exists_splitOn_dot_eq_cons front
    rw [splitOn_dot_cons, hparts]
    by_cases hb : b = '.'
    · simp [hb]
    · simp [hb]
  | case3 a scope b front ih =>
    obtain ⟨part, parts, hparts⟩ := exists_splitOn_dot_eq_cons front
    obtain ⟨part', parts', hparts'⟩ := exists_splitOn_dot_eq_cons scope
    rw [Bool.and_eq_true, beq_iff_eq, ih, splitOn_dot_cons, splitOn_dot_cons, hparts, hparts']
    -- the first characters end their segments, or belong to them
    by_cases hb : b = '.'
    · by_cases ha : a = '.'
      · simp [ha, hb]
      · simp [ha, hb]
    · by_cases ha : a = '.'
      · simp [ha, hb, Ne.symm hb]
      · simp only [ha, hb, if_false, List.modifyHead_cons, List.cons_prefix_cons, List.cons.injEq,
          and_assoc, @eq_comm _ a b]

/-- **A scope is under another** if the segments of the other are the first of its own. -/
theorem isUnder_iff {scope front : String} :
    isUnder scope front = true ↔ segments front <+: segments scope :=
  isUnderChars_iff scope.toList front.toList

example : isUnder "a..b" "a." = true ∧ isUnder "a.b" "a." = false := by decide +kernel

theorem isPartialOrder_isUnder :
    IsPartialOrder String fun scope front ↦ isUnder scope front = true where
  refl _ := isUnder_iff.mpr List.prefix_rfl
  trans _ _ _ h h' := isUnder_iff.mpr ((isUnder_iff.mp h').trans (isUnder_iff.mp h))
  antisymm _ _ h h' :=
    segments_injective ((isUnder_iff.mp h').eq_of_length_le (isUnder_iff.mp h).length_le)

/-! ## Distinct scopes -/

namespace ScopeGrammar

/-- The scopes as the declarations name them, one after the other and with repeats. -/
def named (g : ScopeGrammar) : List String := g.declarations.flatMap ScopeDecl.scopes

variable {g : ScopeGrammar} {front scope : String}

theorem hasScope_iff_mem_named : g.hasScope scope = true ↔ scope ∈ g.named := by
  simp [hasScope, ScopeDecl.declares, named]

theorem mem_scopes_iff : scope ∈ g.scopes ↔ g.hasScope scope = true := by
  rw [scopes, List.mem_eraseDups, hasScope_iff_mem_named, named]

theorem mem_scopesUnder_iff :
    scope ∈ g.scopesUnder front ↔ g.hasScope scope = true ∧ isUnder scope front = true := by
  rw [scopesUnder, List.mem_filter, mem_scopes_iff]

theorem pairwise_scopesUnder (g : ScopeGrammar) (front : String) :
    (g.scopesUnder front).Pairwise fun s t ↦ g.named.idxOf s < g.named.idxOf t :=
  (pairwise_idxOf_eraseDups g.named).filter _

theorem nodup_scopesUnder (g : ScopeGrammar) (front : String) : (g.scopesUnder front).Nodup :=
  (nodup_eraseDups g.named).filter _

/-- A declaration is under a scope if it names one of the scopes that are found under it. -/
theorem isUnder_eq_decide {d : ScopeDecl} (hd : d ∈ g.declarations) :
    d.isUnder front = decide (∃ s ∈ d.scopes, s ∈ g.scopesUnder front) := by
  rw [Bool.eq_iff_iff, ScopeDecl.isUnder, List.any_eq_true, decide_eq_true_eq]
  refine exists_congr fun s ↦ and_congr_right fun hs ↦ ?_
  have hnamed : s ∈ g.named := List.mem_flatMap.mpr ⟨d, hd, hs⟩
  rw [mem_scopesUnder_iff, hasScope_iff_mem_named]
  exact ⟨fun h ↦ ⟨hnamed, h⟩, And.right⟩

end ScopeGrammar

/-- **The search by a front is one by segments**, and both that search are of one mind: the distinct
scopes under a front come in the order of their first declaration, and a listing keeps the
declarations that name one of them. -/
theorem scopesUnder_segments :
    (∀ scope front, isUnder scope front = true ↔ segments front <+: segments scope) ∧
      (IsPartialOrder String fun scope front ↦ isUnder scope front = true) ∧
      ∀ (g : ScopeGrammar) (front : String),
        (g.scopesUnder front).Nodup ∧
          (∀ scope, scope ∈ g.scopesUnder front ↔
            g.hasScope scope = true ∧ isUnder scope front = true) ∧
          ((g.scopesUnder front).Pairwise fun s t ↦ g.named.idxOf s < g.named.idxOf t) ∧
          ScopeListing.select g (some front) =
            g.declarations.filter fun d ↦ ∃ s ∈ d.scopes, s ∈ g.scopesUnder front := by
  refine ⟨fun _ _ ↦ isUnder_iff, isPartialOrder_isUnder, fun g front ↦ ?_⟩
  refine ⟨g.nodup_scopesUnder front, fun _ ↦ ScopeGrammar.mem_scopesUnder_iff,
    g.pairwise_scopesUnder front, ?_⟩
  rw [ScopeListing.select]
  exact List.filter_congr fun d hd ↦ ScopeGrammar.isUnder_eq_decide hd

end Concord
