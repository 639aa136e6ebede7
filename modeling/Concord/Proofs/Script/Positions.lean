import Concord.Proofs.Grammar.Names
import Concord.Proofs.Script.Roles
import Concord.Proofs.Script.Spacing

/-!
# Positions in grammar scripts

Slicing a script gives the texts of its tokens (`slice?_of_mem_tokenize`), and all that the scanner
places in it is placed by a token: a delimiter that is open, a declared rule and a remark with its
notes.  `ScanState.Placed` says of what it has found that all places are stretches of the source;
`Placed.step` carries this past one token and `Placed.run` past all of them.  What is found in the
end stands at tokens or at the front of the source (`placed_scanScript`).
-/

set_option autoImplicit false

namespace Concord.Script

variable {source : String}

/-- **Slicing gives the text of a token.** -/
theorem slice?_of_mem_tokenize {t : Token} (h : t ∈ tokenize source) :
    slice? source.toList t.span = some t.text :=
  slice?_eq_some_iff.mpr (textAt_of_mem_tokenize h)

/-- Everything that has been found can be cut out of the source. -/
structure ScanState.Placed (s : ScanState) (source : String) : Prop where
  stack : ∀ f ∈ s.stack, f.span.Sliceable source
  diagnostics : ∀ d ∈ s.diagnostics.toList, d.Sliceable source
  rules : ∀ r ∈ s.grammar.rules, ∀ span ∈ r.span, span.Sliceable source

theorem mem_insertInto {r q : Rule} {rs : List Rule} (h : q ∈ r.insertInto rs) :
    q = r ∨ q ∈ rs := by
  induction rs with
  | nil => exact .inl (List.mem_singleton.mp h)
  | cons p rs ih =>
    rw [Rule.insertInto] at h
    split at h
    · exact (List.mem_cons.mp h).imp_right (List.mem_cons_of_mem p)
    · rcases List.mem_cons.mp h with rfl | h
      · exact .inr List.mem_cons_self
      · exact (ih h).imp_right (List.mem_cons_of_mem p)

/-- A frame that is never closed is remarked on where it was opened. -/
theorem sliceable_neverClosed {f : Frame} {related : List RelatedNote}
    (hf : f.span.Sliceable source) (hrelated : ∀ n ∈ related, n.span.Sliceable source) :
    (ScanState.neverClosed f related).Sliceable source :=
  ⟨hf, hrelated⟩

namespace ScanState.Placed

variable {s : ScanState} {before after : List Token} {t : Token}

theorem start (mode : Mode) (source : String) : Placed { mode := mode } source :=
  ⟨List.forall_mem_nil _, List.forall_mem_nil _, List.forall_mem_nil _⟩

theorem report (h : s.Placed source) {d : Diagnostic} (hd : d.Sliceable source) :
    (s.report d).Placed source where
  stack := h.stack
  diagnostics := by
    rw [ScanState.report, Array.toList_push]
    exact List.forall_mem_append.mpr ⟨h.diagnostics, by simpa using hd⟩
  rules := h.rules

theorem opened (h : s.Placed source) (ht : t.span.Sliceable source) (d : Delimiter) :
    (s.opened d before t).Placed source := by
  have hnote (r : Role) : (s.note r).Placed source := by
    cases r <;> exact ⟨h.stack, h.diagnostics, h.rules⟩
  rw [opened_eq]
  exact ⟨List.forall_mem_cons.mpr ⟨ht, (hnote _).stack⟩, (hnote _).diagnostics, (hnote _).rules⟩

theorem closed (h : s.Placed source) (ht : t.span.Sliceable source) (d : Delimiter) :
    (s.closed d t).Placed source := by
  rw [ScanState.closed]
  split
  · exact h.report ⟨ht, List.forall_mem_nil _⟩
  · rename_i f outer houter
    have hskipped : ∀ f ∈ s.stack.takeWhile (·.delimiter ≠ d), f.span.Sliceable source :=
      fun f hf ↦ h.stack f ((List.takeWhile_sublist _).subset hf)
    refine ⟨fun f hf ↦ h.stack f ?_, ?_, h.rules⟩
    · exact (List.dropWhile_sublist _).subset (houter ▸ List.mem_cons_of_mem _ hf)
    · rw [Array.toList_append]
      refine List.forall_mem_append.mpr ⟨h.diagnostics, fun d hd ↦ ?_⟩
      obtain ⟨f, hf, rfl⟩ := List.mem_map.mp hd
      exact sliceable_neverClosed (hskipped f (List.mem_reverse.mp hf)) (by simpa using ht)

theorem declare (h : s.Placed source) (ht : t.span.Sliceable source) (name : String) :
    Placed { s with grammar := (s.grammar.declare ⟨name, some t.span⟩).1 } source where
  stack := h.stack
  diagnostics := h.diagnostics
  rules r hr := by
    rcases mem_insertInto hr with rfl | hr
    · simpa using ht
    · exact h.rules r hr

theorem declaration (h : s.Placed source) (ht : t.span.Sliceable source) :
    (s.declaration before t after).Placed source := by
  rw [ScanState.declaration]
  split
  · split
    · exact h
    · rename_i key _
      have hdeclared := h.declare ht (String.ofList key)
      dsimp only [Grammar.declare] at hdeclared ⊢
      split
      · exact hdeclared
      · rename_i first hfirst
        refine hdeclared.report ⟨ht, fun n hn ↦ ?_⟩
        obtain ⟨span, hspan, rfl⟩ := List.mem_map.mp hn
        exact h.rules first (List.mem_of_find?_eq_some hfirst) span (by simpa using hspan)
  · exact h

theorem grammarName (h : s.Placed source) : (s.grammarName before t after).Placed source := by
  unfold ScanState.grammarName
  repeat' split
  all_goals first
    | exact h
    | exact ⟨h.stack, h.diagnostics, h.rules⟩

theorem reference (h : s.Placed source) : (s.reference t after).Placed source := by
  unfold ScanState.reference
  repeat' split
  all_goals first
    | exact h
    | exact ⟨h.stack, h.diagnostics, by simpa using h.rules⟩

/-- **One step of the scanner** places what it finds at its token. -/
theorem step (h : s.Placed source) (ht : t.span.Sliceable source) :
    (s.step before t after).Placed source := by
  rw [ScanState.step]
  split
  · exact h.opened ht _
  · exact h.closed ht _
  · exact (h.declaration ht).grammarName.reference
  · exact (h.declaration ht).grammarName.reference
  · exact h

/-- **Going past all tokens** that are left. -/
theorem run (h : s.Placed source) (ht : ∀ t ∈ after, t.span.Sliceable source) :
    (s.run before after).Placed source := by
  induction after generalizing s before with
  | nil => exact h
  | cons t after ih =>
    rw [List.forall_mem_cons] at ht
    exact ih (h.step ht.1) ht.2

theorem finish (h : s.Placed source) : ∀ d ∈ s.finish, d.Sliceable source := by
  rw [ScanState.finish]
  refine List.forall_mem_append.mpr ⟨List.forall_mem_append.mpr ⟨h.diagnostics, fun d hd ↦ ?_⟩, ?_⟩
  · obtain ⟨f, hf, rfl⟩ := List.mem_map.mp hd
    exact sliceable_neverClosed (h.stack f (List.mem_reverse.mp hf)) (List.forall_mem_nil _)
  · split
    · exact List.forall_mem_nil _
    · exact List.forall_mem_singleton.mpr
        ⟨Span.sliceable_emptyAt_zero source, List.forall_mem_nil _⟩

end ScanState.Placed

/-- **What is found in a script** can be cut out of it: the places of remarks and of declared
rules. -/
theorem placed_scanScript (source : String) :
    (∀ d ∈ (scanScript source).2, d.Sliceable source) ∧
      ∀ r ∈ (scanScript source).1.rules, ∀ span ∈ r.span, span.Sliceable source := by
  have h : (scanTokens (tokenize source)).Placed source := by
    rw [scanTokens_eq_run]
    exact (ScanState.Placed.start _ source).run fun t ↦ sliceable_of_mem_tokenize
  exact ⟨h.finish, h.rules⟩

end Concord.Script
