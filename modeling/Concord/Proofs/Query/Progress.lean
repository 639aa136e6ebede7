import Mathlib.Order.Nat
import Mathlib.Tactic.Choose
import Concord.Proofs.Query.Conservation

/-!
# Productions go forward and build low trees

All productions are put together from a few operations.  What an operation leaves is an end of what
it was given: it never goes back.  And it nests its nodes no deeper than it is put together.

* `Operation n` says how productions are put together with at most `n` nodes inside one another.
  `operation_pattern` and `operation_root` go through all productions: a level of patterns adds a
  capture, a quantifier and an atom, each of them a node.
* `rest_operation` — no operation goes back.
* `heightAll_operation` — the trees that it builds are at most `n` nodes high.
* `rest_pattern` and `rest_strayToken` — where a text is read pattern by pattern, each step takes at
  least one lexeme, so that the text comes to its end.
-/

set_option autoImplicit false

namespace Concord.Query

/-! ## The height of trees -/

namespace Tree

variable {α : Type}

mutual

/-- How many nodes of a tree stand inside one another at most. -/
def height : Tree α → Nat
  | leaf _ => 0
  | node _ children => heightAll children + 1

/-- How many nodes of some trees stand inside one another at most. -/
def heightAll : List (Tree α) → Nat
  | [] => 0
  | t :: ts => max t.height (heightAll ts)

end

@[simp] theorem heightAll_append (ts us : List (Tree α)) :
    heightAll (ts ++ us) = max (heightAll ts) (heightAll us) := by
  induction ts with
  | nil => simp [heightAll]
  | cons t ts ih => simp [heightAll, ih, max_assoc]

@[simp] theorem heightAll_map_leaf (as : List α) : heightAll (as.map leaf) = 0 := by
  induction as with
  | nil => rfl
  | cons a as ih => simp [heightAll, height, ih]

theorem height_le_heightAll {t : Tree α} {ts : List (Tree α)} (ht : t ∈ ts) :
    t.height ≤ heightAll ts := by
  induction ts with
  | nil => contradiction
  | cons u ts ih =>
    rw [heightAll]
    rcases List.mem_cons.mp ht with rfl | ht
    · exact le_max_left _ _
    · exact (ih ht).trans (le_max_right _ _)

end Tree

namespace Production

/-! ## Operations -/

/-- What productions are put together from: operations that take nothing, one lexeme, the captures
that are next or all that is left, and operations in sequence, in a node, or chosen by looking
ahead.  At most `n` nodes stand inside one another. -/
inductive Operation : (n : Nat) → Production → Prop
  | nothing {n : Nat} : Operation n nothing
  | report {n : Nat} (problem : Problem) : Operation n (report problem)
  | token {n : Nat} : Operation n token
  | captureNames {n : Nat} : Operation n captureNames
  | swallow {n : Nat} : Operation (n + 1) swallow
  | seq {n : Nat} {ps : List Production} (h : ∀ p ∈ ps, Operation n p) : Operation n (seq ps)
  | node {n : Nat} (kind : NodeKind) {p : Production} (h : Operation n p) :
    Operation (n + 1) (node kind p)
  | ahead {n : Nat} {choice : List Lexeme → Production} (h : ∀ ls, Operation n (choice ls)) :
    Operation n fun ls ↦ choice ls ls

/-- A production is an operation if it does in every place what some operation does. -/
theorem Operation.of_forall {n : Nat} {p : Production}
    (h : ∀ ls, ∃ q, Operation n q ∧ p ls = q ls) : Operation n p := by
  choose choice hchoice heq using h
  rw [show p = fun ls ↦ choice ls ls from funext heq]
  exact .ahead hchoice

theorem Operation.succ {n : Nat} {p : Production} (h : Operation n p) : Operation (n + 1) p := by
  induction h with
  | nothing => exact .nothing
  | report problem => exact .report problem
  | token => exact .token
  | captureNames => exact .captureNames
  | swallow => exact .swallow
  | seq _ ih => exact .seq ih
  | node kind _ ih => exact .node kind ih
  | ahead _ ih => exact .ahead ih

/-- What a sequence leaves, if none of its parts goes back. -/
theorem rest_seq {ps : List Production} (h : ∀ p ∈ ps, ∀ ls, (p ls).rest <:+ ls)
    (ls : List Lexeme) : (seq ps ls).rest <:+ ls := by
  induction ps generalizing ls with
  | nil => exact List.suffix_refl ls
  | cons p ps ih =>
    rw [List.forall_mem_cons] at h
    exact (ih h.2 (p ls).rest).trans (h.1 ls)

/-- **No operation goes back**: what it leaves is an end of what it was given. -/
theorem rest_operation {n : Nat} {p : Production} (h : Operation n p) (ls : List Lexeme) :
    (p ls).rest <:+ ls := by
  induction h generalizing ls with
  | nothing => exact List.suffix_refl ls
  | report problem => exact List.suffix_refl ls
  | token =>
    cases ls with
    | nil => exact List.suffix_refl []
    | cons l ls => exact List.suffix_cons l ls
  | captureNames => exact List.dropWhile_suffix _
  | swallow => exact List.nil_suffix
  | seq _ ih => exact rest_seq ih ls
  | node kind _ ih => exact ih ls
  | ahead _ ih => exact ih ls ls

theorem heightAll_seq {n : Nat} {ps : List Production}
    (h : ∀ p ∈ ps, ∀ ls, Tree.heightAll (p ls).trees ≤ n) (ls : List Lexeme) :
    Tree.heightAll (seq ps ls).trees ≤ n := by
  induction ps generalizing ls with
  | nil => exact Nat.zero_le n
  | cons p ps ih =>
    rw [List.forall_mem_cons] at h
    rw [seq_cons, Parsed.andThen, Tree.heightAll_append]
    exact max_le (h.1 ls) (ih h.2 (p ls).rest)

/-- **The trees that an operation builds are low**: it nests nodes no deeper than it is put
together. -/
theorem heightAll_operation {n : Nat} {p : Production} (h : Operation n p) (ls : List Lexeme) :
    Tree.heightAll (p ls).trees ≤ n := by
  induction h generalizing ls with
  | nothing => exact Nat.zero_le _
  | report problem => exact Nat.zero_le _
  | token => cases ls <;> exact Nat.zero_le _
  | captureNames => exact (Tree.heightAll_map_leaf _).trans_le (Nat.zero_le _)
  | swallow => simp [swallow, Tree.heightAll, Tree.height]
  | seq _ ih => exact heightAll_seq ih ls
  | node kind _ ih => simpa [node, Parsed.wrap, Tree.heightAll, Tree.height] using ih ls
  | ahead _ ih => exact ih ls ls

/-! ## Productions as operations -/

section Flat

variable {n : Nat}

theorem operation_ite {p : Production} {c : List Lexeme → Prop} [∀ ls, Decidable (c ls)]
    {q r : Production} (hq : Operation n q) (hr : Operation n r)
    (h : ∀ ls, p ls = if c ls then q ls else r ls) : Operation n p := by
  refine .of_forall fun ls ↦ ?_
  by_cases hc : c ls
  · exact ⟨q, hq, by rw [h, if_pos hc]⟩
  · exact ⟨r, hr, by rw [h, if_neg hc]⟩

theorem operation_optional (kind : TokenKind) : Operation n (optional kind) :=
  operation_ite .token .nothing fun _ ↦ rfl

theorem operation_expect (kind : TokenKind) (problem : Problem) :
    Operation n (expect kind problem) :=
  operation_ite .token (.report problem) fun _ ↦ rfl

theorem operation_close (kind : TokenKind) (problem : Nat → Problem) (opener : List Lexeme) :
    Operation n (close kind problem opener) :=
  operation_ite .token (.report _) fun _ ↦ rfl

theorem operation_pair {p q : Production} (hp : Operation n p) (hq : Operation n q) :
    Operation n (seq [p, q]) :=
  .seq (by simp [hp, hq])

theorem operation_triple {p q r : Production} (hp : Operation n p) (hq : Operation n q)
    (hr : Operation n r) : Operation n (seq [p, q, r]) :=
  .seq (by simp [hp, hq, hr])

theorem operation_stray (problem : Problem) : Operation (n + 1) (stray problem) :=
  operation_pair (.report problem) (.node .error .token)

section Many

variable {stop : TokenKind → Bool} {item : TokenKind → Production}

theorem seq_pair (p q : Production) (ls : List Lexeme) : seq [p, q] ls = (p ls).andThen q := by
  simp [seq_cons, Parsed.andThen]

theorem operation_manyWithin (h : ∀ kind, Operation n (item kind)) (fuel : List Lexeme) :
    Operation n (manyWithin stop item fuel) := by
  induction fuel with
  | nil => exact .nothing
  | cons f fuel ih =>
    refine .of_forall fun ls ↦ ?_
    cases ls with
    | nil => exact ⟨_, .nothing, rfl⟩
    | cons l ls =>
      by_cases hstop : stop l.kind = true
      · exact ⟨_, .nothing, by rw [manyWithin]; exact if_pos hstop⟩
      · refine ⟨_, operation_pair (h l.kind) ih, ?_⟩
        rw [manyWithin, seq_pair]
        exact if_neg hstop

theorem operation_many (h : ∀ kind, Operation n (item kind)) : Operation n (many stop item) :=
  .of_forall fun ls ↦ ⟨_, operation_manyWithin h ls, rfl⟩

end Many

theorem operation_garbage : Operation (n + 1) garbage := by
  refine .of_forall fun ls ↦ ?_
  cases ls with
  | nil => exact ⟨_, .nothing, rfl⟩
  | cons l ls =>
    rw [garbage]
    split
    · exact ⟨_, operation_stray _, rfl⟩
    · exact ⟨_, operation_stray _, rfl⟩

theorem operation_strayToken (kind : TokenKind) : Operation (n + 1) (strayToken kind) := by
  cases kind with
  | garbage => exact operation_garbage
  | _ => exact operation_stray _

theorem operation_str : Operation (n + 1) str :=
  .node .str (operation_triple .token (operation_optional _) (operation_expect _ _))

theorem operation_negatedField : Operation (n + 1) negatedField :=
  .node .negatedField (operation_pair .token (operation_expect _ _))

theorem operation_bareName : Operation (n + 1) bareName := by
  refine .of_forall fun ls ↦ ?_
  cases ls with
  | nil => exact ⟨_, .nothing, rfl⟩
  | cons l ls => exact ⟨_, operation_stray _, rfl⟩

theorem operation_argument (kind : TokenKind) : Operation (n + 1) (argument kind) := by
  cases kind with
  | captureName | ident | underscore => exact .token
  | quote => exact operation_str
  | garbage => exact operation_garbage
  | _ => exact operation_stray _

theorem operation_arguments : Operation (n + 1) arguments := operation_many operation_argument

theorem operation_subtype : Operation n subtype :=
  operation_ite (operation_pair .token (operation_expect _ _)) .nothing fun _ ↦ rfl

end Flat

section Nested

variable {n : Nat} {pattern : Production} (h : Operation (n + 1) pattern)
include h

theorem operation_field : Operation (n + 2) (field pattern) :=
  .node .field (operation_triple .token .token
    (operation_ite h (.report .expectedFieldValue) fun _ ↦ rfl))

theorem operation_patterns (stop : TokenKind → Bool) :
    Operation (n + 1) (patterns pattern stop) := by
  refine operation_many fun kind ↦ ?_
  split
  · exact h
  · exact operation_strayToken kind

theorem operation_parenBody (ls : List Lexeme) : Operation (n + 1) (parenBody pattern ls).2 := by
  have hpatterns := operation_patterns h (· = .parenClose)
  rw [parenBody]
  split
  · exact .nothing
  · exact .report _
  · exact operation_triple .token operation_subtype hpatterns
  · exact operation_triple .token operation_subtype hpatterns
  · exact operation_pair .token operation_arguments
  · split
    · exact hpatterns
    · exact operation_pair (.report _) hpatterns

theorem operation_paren : Operation (n + 2) (paren pattern) :=
  .of_forall fun ls ↦ ⟨_, .node (parenBody pattern ls.tail).1 (operation_triple .token
    (operation_parenBody h ls.tail) (operation_close .parenClose .unclosedTree ls)), rfl⟩

theorem operation_alternation : Operation (n + 2) (alternation pattern) :=
  .of_forall fun ls ↦ ⟨_, .node .alternation (operation_triple .token (operation_patterns h _)
    (operation_close .bracketClose .unclosedAlternation ls)), rfl⟩

theorem operation_atom : Operation (n + 2) (atom pattern) := by
  refine .of_forall fun ls ↦ ?_
  rw [atom]
  split
  · exact ⟨_, operation_paren h, rfl⟩
  · exact ⟨_, operation_alternation h, rfl⟩
  · exact ⟨_, operation_str, rfl⟩
  · exact ⟨_, .node .wildcard .token, rfl⟩
  · exact ⟨_, .node .anchor .token, rfl⟩
  · exact ⟨_, operation_negatedField, rfl⟩
  · split
    · exact ⟨_, operation_field h, rfl⟩
    · exact ⟨_, operation_bareName, rfl⟩
  · exact ⟨_, operation_stray _, rfl⟩

end Nested

section Wrapped

variable {n : Nat} {p : Production} (h : Operation n p)
include h

theorem operation_quantified : Operation (n + 1) fun ls ↦ quantified (p ls) := by
  refine .of_forall fun ls ↦ ?_
  by_cases hahead : (kindAhead (p ls).rest).any TokenKind.isQuantifier = true
  · refine ⟨_, .node .quantifier (operation_pair h .token), ?_⟩
    rw [quantified, if_pos hahead, node, seq_pair]
  · exact ⟨_, h.succ, by rw [quantified, if_neg hahead]⟩

theorem operation_captured : Operation (n + 1) fun ls ↦ captured (p ls) := by
  refine .of_forall fun ls ↦ ?_
  by_cases hahead : kindAhead (p ls).rest = some .captureName
  · refine ⟨_, .node .capture (operation_pair h .captureNames), ?_⟩
    rw [captured_of_ahead hahead, node, seq_pair]
  · exact ⟨_, h.succ, by rw [captured, if_neg hahead]⟩

end Wrapped

/-- A level of patterns adds at most a capture, a quantifier and an atom; where no level is left,
all the rest is one node. -/
theorem operation_pattern (levels : Nat) : Operation (3 * levels + 1) (pattern levels) := by
  induction levels with
  | zero => exact .swallow
  | succ levels ih => exact operation_captured (operation_quantified (operation_atom ih))

theorem operation_root : Operation (3 * maxDepth + 1) root :=
  operation_patterns (operation_pattern maxDepth) _

/-! ## What one step takes -/

/-- What advances leaves an end of what is behind the next lexeme. -/
theorem Advances.rest_suffix {p : Production} (h : Advances p) (l : Lexeme) (ls : List Lexeme) :
    (p (l :: ls)).rest <:+ ls := by
  obtain ⟨haccounts, hle⟩ := h l ls
  have hleaves := haccounts.leaves
  cases htaken : Tree.leavesAll (p (l :: ls)).trees with
  | nil =>
    rw [htaken, List.nil_append] at hleaves
    rw [hleaves, List.length_cons] at hle
    exact absurd hle (Nat.not_succ_le_self _)
  | cons m ms =>
    rw [htaken, List.cons_append] at hleaves
    exact ⟨ms, (List.cons.inj hleaves).2⟩

/-- **A pattern takes at least one lexeme**, however deep it may nest. -/
theorem rest_pattern (levels : Nat) (l : Lexeme) (ls : List Lexeme) :
    (pattern levels (l :: ls)).rest <:+ ls :=
  (pattern_advances levels).rest_suffix l ls

/-- **A stray token takes one lexeme.** -/
theorem rest_strayToken (kind : TokenKind) (l : Lexeme) (ls : List Lexeme) :
    (strayToken kind (l :: ls)).rest = ls := by
  cases kind with
  | garbage =>
    rw [strayToken, garbage]
    split <;> rfl
  | _ => rfl

end Production

end Concord.Query
