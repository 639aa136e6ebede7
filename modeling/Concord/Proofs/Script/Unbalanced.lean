import Mathlib.Data.List.Nodup
import Concord.Proofs.Script.Declarations
import Concord.Proofs.Script.Passing
import Concord.Proofs.Script.Places

/-!
# Which delimiters of a script are reported

The scanner reports a closer that has no opener, the openers that it skips to reach the one that a
closer is for, and the openers that are left in the end.  What it has reported and what is still
open account for everything that does not match:

* `Unfinished kept frames` says that the delimiters `kept` match, but for the openers of the frames.
* `Accounts front stack spans` says that this holds of the delimiters of `front` which do not stand
  at one of the places `spans`.  Each case of a step keeps it, `Accounts.run` carries it through the
  tokens, and `Accounts.skip` settles the frames that are left.
* `run_of_unclosed` is the other direction: where delimiters match, nothing is reported.
-/

set_option autoImplicit false

namespace Concord.Script

/-! ## Reported and other delimiters -/

/-- The places of the delimiters that are reported. -/
def unbalancedSpans (ds : List Diagnostic) : List Span :=
  (ds.filter (·.kind = .unbalancedDelimiter)).map Diagnostic.span

theorem unbalancedSpans_append (ds es : List Diagnostic) :
    unbalancedSpans (ds ++ es) = unbalancedSpans ds ++ unbalancedSpans es := by
  simp [unbalancedSpans]

theorem unbalancedSpans_of_ne {ds : List Diagnostic} (h : ∀ d ∈ ds, d.kind ≠ .unbalancedDelimiter) :
    unbalancedSpans ds = [] := by
  simpa [unbalancedSpans] using h

theorem unbalancedSpans_neverClosed (fs : List Frame) (related : List RelatedNote) :
    unbalancedSpans (fs.map (ScanState.neverClosed · related)) = fs.map Frame.span := by
  simp [unbalancedSpans, ScanState.neverClosed, List.filter_map, Function.comp_def]

/-- The delimiters of a token list. -/
def delimiters (ts : List Token) : List Token := ts.filter (·.kind.isDelimiter)

/-- The delimiters of a token list that do not stand at one of some places. -/
def delimitersBut (spans : List Span) (ts : List Token) : List Token :=
  (delimiters ts).filter (·.span ∉ spans)

@[simp] theorem delimitersBut_nil_left (ts : List Token) : delimitersBut [] ts = delimiters ts := by
  simp [delimitersBut]

theorem delimitersBut_append_left (spans spans' : List Span) (ts : List Token) :
    delimitersBut (spans ++ spans') ts = (delimitersBut spans ts).filter (·.span ∉ spans') := by
  simp [delimitersBut, List.filter_filter, Bool.and_comm]

theorem delimitersBut_append (spans : List Span) (ts us : List Token) :
    delimitersBut spans (ts ++ us) = delimitersBut spans ts ++ delimitersBut spans us := by
  simp [delimitersBut, delimiters]

theorem delimitersBut_sublist (spans : List Span) (ts : List Token) :
    (delimitersBut spans ts).Sublist ts :=
  List.filter_sublist.trans List.filter_sublist

theorem span_not_mem_of_mem_delimitersBut {spans : List Span} {ts : List Token} {t : Token}
    (h : t ∈ delimitersBut spans ts) : t.span ∉ spans := by
  simpa using (List.mem_filter.mp h).2

theorem isDelimiter_of_mem_delimitersBut {spans : List Span} {ts : List Token} {t : Token}
    (h : t ∈ delimitersBut spans ts) : t.kind.isDelimiter = true :=
  (List.mem_filter.mp (List.mem_filter.mp h).1).2

section One

variable {spans : List Span} {t : Token}

theorem delimitersBut_singleton (ht : t.kind.isDelimiter = true) (hspan : t.span ∉ spans) :
    delimitersBut spans [t] = [t] := by
  simp [delimitersBut, delimiters, ht, hspan]

theorem delimitersBut_reported (hspan : t.span ∈ spans) : delimitersBut spans [t] = [] := by
  simp [delimitersBut, delimiters, List.filter_cons, hspan]

theorem delimitersBut_other (ht : t.kind.isDelimiter = false) : delimitersBut spans [t] = [] := by
  simp [delimitersBut, delimiters, ht]

end One

/-- What is no delimiter does not matter to what is open. -/
theorem unclosed_delimiters (ds : List Delimiter) (ts : List Token) :
    unclosed ds (delimiters ts) = unclosed ds ts := by
  induction ts generalizing ds with
  | nil => rfl
  | cons t ts ih =>
    cases ht : t.kind.isDelimiter with
    | false =>
      rw [unclosed_plain ht, ← ih, delimiters, List.filter_cons_of_neg (by simp [ht]), delimiters]
    | true =>
      have hcons : delimiters (t :: ts) = t :: delimiters ts := List.filter_cons_of_pos ht
      rw [hcons, unclosed, unclosed]
      simp only [ih]

/-! ## Delimiters that match but for open frames -/

/-- Delimiters that match, but for the openers of the frames, the innermost first. -/
inductive Unfinished : List Token → List Frame → Prop
  | base {kept : List Token} (h : Balanced kept) : Unfinished kept []
  | layer {outer inner : List Token} {o : Token} {f : Frame} {fs : List Frame}
      (h : Unfinished outer fs) (ho : o.kind = .opening f.delimiter) (hspan : o.span = f.span)
      (hinner : Balanced inner) : Unfinished (outer ++ o :: inner) (f :: fs)

namespace Unfinished

variable {kept : List Token} {f : Frame} {fs : List Frame} {t : Token}

theorem append (h : Unfinished kept fs) {ts : List Token} (hts : Balanced ts) :
    Unfinished (kept ++ ts) fs := by
  cases h with
  | base h => exact .base (h.append hts)
  | layer h ho hspan hinner =>
    rw [List.append_assoc, List.cons_append]
    exact .layer h ho hspan (hinner.append hts)

theorem opening (h : Unfinished kept fs) (ht : t.kind = .opening f.delimiter)
    (hspan : t.span = f.span) : Unfinished (kept ++ [t]) (f :: fs) :=
  .layer h ht hspan .nil

theorem closing (h : Unfinished kept (f :: fs)) (ht : t.kind = .closing f.delimiter) :
    Unfinished (kept ++ [t]) fs := by
  cases h with
  | layer h ho hspan hinner =>
    rw [List.append_assoc, List.cons_append]
    exact h.append (.pair ho ht hinner .nil)

/-- The frames stand at the places of some of the delimiters, the last one first. -/
theorem sublist (h : Unfinished kept fs) :
    (fs.map Frame.span).reverse.Sublist (kept.map Token.span) := by
  induction h with
  | base h => exact List.nil_sublist _
  | layer _ _ hspan _ ih =>
    rw [List.map_cons, List.reverse_cons, List.map_append, List.map_cons, hspan]
    exact ih.append (List.singleton_sublist.mpr List.mem_cons_self)

/-- Without its opener, the innermost frame is not open. -/
theorem skip (h : Unfinished kept (f :: fs)) (hkept : (kept.map Token.span).Nodup) :
    Unfinished (kept.filter (·.span ≠ f.span)) fs := by
  cases h with
  | @layer outer inner o _ _ h ho hspan hinner =>
    rw [List.map_append, List.map_cons, List.nodup_append, List.nodup_cons] at hkept
    obtain ⟨-, ⟨hinnerSpan, -⟩, houterSpan⟩ := hkept
    have houter : outer.filter (·.span ≠ f.span) = outer := by
      refine List.filter_eq_self.mpr fun t ht ↦ ?_
      simpa [hspan] using houterSpan t.span (List.mem_map_of_mem ht) o.span List.mem_cons_self
    have hrest : inner.filter (·.span ≠ f.span) = inner := by
      refine List.filter_eq_self.mpr fun t ht ↦ ?_
      have hne : t.span ≠ o.span := fun heq ↦ hinnerSpan (heq ▸ List.mem_map_of_mem ht)
      simpa [hspan] using hne
    rw [List.filter_append, List.filter_cons_of_neg (by simpa using hspan), houter, hrest]
    exact h.append hinner

/-- Without their openers, the inner frames are not open. -/
theorem skipAll {skipped : List Frame} (h : Unfinished kept (skipped ++ fs))
    (hkept : (kept.map Token.span).Nodup) :
    Unfinished (kept.filter (·.span ∉ (skipped.map Frame.span))) fs := by
  induction skipped generalizing kept with
  | nil => simpa using h
  | cons f skipped ih =>
    have hsublist : (kept.filter (·.span ≠ f.span)).Sublist kept := List.filter_sublist
    have hrest := ih (h.skip hkept) (hkept.sublist (hsublist.map Token.span))
    rw [List.filter_filter] at hrest
    refine cast (congrArg (Unfinished · fs) (List.filter_congr fun t _ ↦ ?_)) hrest
    simp [Bool.and_comm]

theorem balanced (h : Unfinished kept []) : Balanced kept := by
  cases h with
  | base h => exact h

end Unfinished

/-! ## Reported and open delimiters account for all that do not match -/

/-- Behind the tokens `front`, the frames on the stack and the delimiters that are reported, at the
places `spans`, are all that does not match. -/
structure Accounts (front : List Token) (stack : List Frame) (spans : List Span) : Prop where
  nodup : spans.Nodup
  reported : ∀ p ∈ spans, ∃ t ∈ front, t.kind.isDelimiter = true ∧ t.span = p
  unfinished : Unfinished (delimitersBut spans front) stack

namespace Accounts

variable {front : List Token} {stack : List Frame} {spans : List Span} {f : Frame} {t : Token}

theorem start : Accounts [] [] [] where
  nodup := .nil
  reported := by simp
  unfinished := .base .nil

theorem reported_next (h : Accounts front stack spans) (t : Token) :
    ∀ p ∈ spans, ∃ u ∈ front ++ [t], u.kind.isDelimiter = true ∧ u.span = p := fun p hp ↦
  (h.reported p hp).imp fun _ ⟨hu, hrest⟩ ↦ ⟨List.mem_append_left [t] hu, hrest⟩

/-- What stands behind the tokens is not reported. -/
theorem span_not_mem (h : Accounts front stack spans) (hnew : t.span ∉ front.map Token.span) :
    t.span ∉ spans := by
  intro hspan
  obtain ⟨u, hu, -, heq⟩ := h.reported _ hspan
  exact hnew (heq ▸ List.mem_map_of_mem hu)

theorem other (h : Accounts front stack spans) (ht : t.kind.isDelimiter = false) :
    Accounts (front ++ [t]) stack spans where
  nodup := h.nodup
  reported := h.reported_next t
  unfinished := by
    rw [delimitersBut_append, delimitersBut_other ht, List.append_nil]
    exact h.unfinished

theorem opening (h : Accounts front stack spans) (hnew : t.span ∉ front.map Token.span)
    (ht : t.kind = .opening f.delimiter) (hspan : t.span = f.span) :
    Accounts (front ++ [t]) (f :: stack) spans where
  nodup := h.nodup
  reported := h.reported_next t
  unfinished := by
    have hdelimiter : t.kind.isDelimiter = true := by rw [ht]; rfl
    rw [delimitersBut_append, delimitersBut_singleton hdelimiter (h.span_not_mem hnew)]
    exact h.unfinished.opening ht hspan

theorem closing (h : Accounts front (f :: stack) spans) (hnew : t.span ∉ front.map Token.span)
    (ht : t.kind = .closing f.delimiter) : Accounts (front ++ [t]) stack spans where
  nodup := h.nodup
  reported := h.reported_next t
  unfinished := by
    have hdelimiter : t.kind.isDelimiter = true := by rw [ht]; rfl
    rw [delimitersBut_append, delimitersBut_singleton hdelimiter (h.span_not_mem hnew)]
    exact h.unfinished.closing ht

/-- A closer without an opener is reported itself. -/
theorem unmatched (h : Accounts front stack spans) (hnew : t.span ∉ front.map Token.span)
    (ht : t.kind.isDelimiter = true) : Accounts (front ++ [t]) stack (spans ++ [t.span]) where
  nodup := by
    refine List.nodup_append.mpr ⟨h.nodup, List.pairwise_singleton _ _, ?_⟩
    intro p hp q hq heq
    rw [List.mem_singleton.mp hq] at heq
    exact h.span_not_mem hnew (heq ▸ hp)
  reported := by
    intro p hp
    rcases List.mem_append.mp hp with hp | hp
    · exact h.reported_next t p hp
    · exact ⟨t, by simp, ht, (List.mem_singleton.mp hp).symm⟩
  unfinished := by
    have hfront : delimitersBut (spans ++ [t.span]) front = delimitersBut spans front := by
      rw [delimitersBut_append_left, List.filter_eq_self]
      intro u hu
      have hne : u.span ≠ t.span := fun heq ↦
        hnew (heq ▸ List.mem_map_of_mem ((delimitersBut_sublist spans front).mem hu))
      simpa using hne
    rw [delimitersBut_append, delimitersBut_reported (by simp), List.append_nil, hfront]
    exact h.unfinished

/-- **Frames that are skipped are reported**, the outermost first. -/
theorem skip {skipped : List Frame} (h : Accounts front (skipped ++ stack) spans)
    (hfront : (front.map Token.span).Nodup) :
    Accounts front stack (spans ++ skipped.reverse.map Frame.span) := by
  have hsublist := delimitersBut_sublist spans front
  have hkept := hfront.sublist (hsublist.map Token.span)
  have hframes := h.unfinished.sublist
  rw [List.map_append, List.reverse_append] at hframes
  have hskipped := (List.sublist_append_right _ _).trans hframes
  rw [← List.map_reverse] at hskipped
  have hmem : ∀ p ∈ skipped.reverse.map Frame.span, ∃ t ∈ delimitersBut spans front, t.span = p :=
    fun p hp ↦ List.mem_map.mp (hskipped.mem hp)
  refine ⟨List.nodup_append.mpr ⟨h.nodup, hkept.sublist hskipped, ?_⟩, ?_, ?_⟩
  · rintro p hp q hq rfl
    obtain ⟨t, ht, rfl⟩ := hmem p hq
    exact span_not_mem_of_mem_delimitersBut ht hp
  · intro p hp
    rcases List.mem_append.mp hp with hp | hp
    · exact h.reported p hp
    · obtain ⟨t, ht, hspan⟩ := hmem p hp
      exact ⟨t, hsublist.mem ht, isDelimiter_of_mem_delimitersBut ht, hspan⟩
  · rw [delimitersBut_append_left]
    simpa using h.unfinished.skipAll hkept

end Accounts

/-! ## The scanner -/

namespace ScanState

variable {s : ScanState} {before after : List Token} {t : Token} {d : Delimiter}

/-- The places of the delimiters that have been reported. -/
def unbalanced (s : ScanState) : List Span := unbalancedSpans s.diagnostics.toList

/-- What is no delimiter changes nothing about what is open and what has been reported. -/
theorem step_other (s : ScanState) (before after : List Token) (ht : t.kind.isDelimiter = false) :
    (s.step before t after).stack = s.stack ∧
      (s.step before t after).unbalanced = s.unbalanced := by
  cases hkey : t.key? with
  | none =>
    rw [step_mark ht hkey]
    exact ⟨rfl, rfl⟩
  | some key =>
    have hdeclaration : (s.declaration before t after).stack = s.stack ∧
        (s.declaration before t after).unbalanced = s.unbalanced := by
      by_cases hdeclares : Walk.Declares s before after
      · obtain ⟨ds, hds, -, heq⟩ := Walk.declaration_of hdeclares hkey
        have hnone : unbalancedSpans ds = [] :=
          unbalancedSpans_of_ne fun d hd ↦ by simp [hds d hd]
        rw [heq]
        refine ⟨rfl, ?_⟩
        simp [unbalanced, unbalancedSpans_append, hnone]
      · rw [Walk.declaration_of_not hdeclares]
        exact ⟨rfl, rfl⟩
    have hname := Walk.grammarName_agrees (s.declaration before t after) before t after
    have href := Walk.reference_agrees
      ((s.declaration before t after).grammarName before t after) t after
    rw [step_of_key hkey, unbalanced, href.stack, href.diagnostics, hname.stack, hname.diagnostics]
    exact hdeclaration

theorem opened_stack (s : ScanState) (d : Delimiter) (before : List Token) (t : Token) :
    (s.opened d before t).stack = ⟨d, s.openingRole d before, t.span⟩ :: s.stack ∧
      (s.opened d before t).unbalanced = s.unbalanced := by
  rw [opened_eq]
  cases s.openingRole d before <;> exact ⟨rfl, rfl⟩

/-- **What closing a delimiter reports**: itself if it has no opener, and else the openers that are
skipped. -/
theorem closed_cases (s : ScanState) (d : Delimiter) (t : Token) :
    ((s.closed d t).stack = s.stack ∧ (s.closed d t).unbalanced = s.unbalanced ++ [t.span]) ∨
      ∃ skipped f, s.stack = skipped ++ f :: (s.closed d t).stack ∧ f.delimiter = d ∧
        (s.closed d t).unbalanced = s.unbalanced ++ skipped.reverse.map Frame.span := by
  have hstack := List.takeWhile_append_dropWhile (p := (·.delimiter ≠ d)) (l := s.stack)
  rw [closed]
  split
  · refine .inl ⟨rfl, ?_⟩
    rw [unbalanced, report, Array.toList_push, unbalancedSpans_append]
    rfl
  · rename_i f outer heq
    refine .inr ⟨s.stack.takeWhile (·.delimiter ≠ d), f, by rw [← heq, hstack], ?_, ?_⟩
    · have hf := List.head?_dropWhile_not (fun f : Frame ↦ decide (f.delimiter ≠ d)) s.stack
      rw [heq] at hf
      simpa using hf
    · rw [unbalanced, unbalanced, Array.toList_append, unbalancedSpans_append,
        unbalancedSpans_neverClosed]

end ScanState

namespace Accounts

variable {s : ScanState} {before after : List Token} {t : Token}

/-- **One step of the scanner** goes past one token. -/
theorem step (h : Accounts before.reverse s.stack s.unbalanced)
    (hspans : ((before.reverse ++ [t]).map Token.span).Nodup) :
    Accounts (before.reverse ++ [t]) (s.step before t after).stack
      (s.step before t after).unbalanced := by
  have hbefore : (before.reverse.map Token.span).Nodup :=
    hspans.sublist ((List.sublist_append_left _ _).map Token.span)
  have hnew : t.span ∉ before.reverse.map Token.span := by
    rw [List.map_append, List.nodup_append] at hspans
    exact fun hmem ↦ hspans.2.2 _ hmem _ (List.mem_singleton_self _) rfl
  cases hkind : t.kind.isDelimiter with
  | false =>
    obtain ⟨hstack, hunbalanced⟩ := s.step_other before after hkind
    rw [hstack, hunbalanced]
    exact h.other hkind
  | true =>
    cases ht : t.kind with
    | opening d =>
      obtain ⟨hstack, hunbalanced⟩ := s.opened_stack d before t
      rw [ScanState.step_opening ht, hstack, hunbalanced]
      exact h.opening hnew ht rfl
    | closing d =>
      rw [ScanState.step_closing ht]
      rcases s.closed_cases d t with ⟨hstack, hunbalanced⟩ | ⟨skipped, f, hstack, rfl, hunbalanced⟩
      · rw [hstack, hunbalanced]
        exact h.unmatched hnew hkind
      · rw [hunbalanced]
        rw [hstack] at h
        exact (h.skip hbefore).closing hnew ht
    | _ => simp [ht, TokenKind.isDelimiter] at hkind

/-- **The scanner goes past all tokens.** -/
theorem run (h : Accounts before.reverse s.stack s.unbalanced)
    (hspans : ((before.reverse ++ after).map Token.span).Nodup) :
    Accounts (before.reverse ++ after) (s.run before after).stack
      (s.run before after).unbalanced := by
  induction after generalizing before s with
  | nil => simpa [ScanState.run] using h
  | cons t after ih =>
    have hsplit : before.reverse ++ t :: after = (t :: before).reverse ++ after := by simp
    have hfront : ((before.reverse ++ [t]).map Token.span).Nodup := by
      rw [hsplit, List.reverse_cons, List.map_append] at hspans
      exact hspans.of_append_left
    rw [hsplit] at hspans ⊢
    rw [ScanState.run]
    refine ih ?_ hspans
    rw [List.reverse_cons]
    exact h.step hfront

end Accounts

/-- Where the delimiters match, nothing is reported. -/
theorem ScanState.run_of_unclosed (s : ScanState) (before : List Token) {after : List Token}
    {ds : List Delimiter} (h : unclosed (s.stack.map Frame.delimiter) after = some ds) :
    (s.run before after).stack.map Frame.delimiter = ds ∧
      (s.run before after).unbalanced = s.unbalanced := by
  induction after generalizing s before with
  | nil => exact ⟨Option.some.inj h, rfl⟩
  | cons t after ih =>
    rw [ScanState.run]
    cases hkind : t.kind.isDelimiter with
    | false =>
      obtain ⟨hstack, hunbalanced⟩ := s.step_other before after hkind
      rw [unclosed_plain hkind, ← hstack] at h
      rw [← hunbalanced]
      exact ih _ _ h
    | true =>
      cases ht : t.kind with
      | opening d =>
        obtain ⟨hstack, hunbalanced⟩ := s.opened_stack d before t
        rw [unclosed_opening ht] at h
        rw [step_opening ht, ← hunbalanced]
        exact ih _ _ (by rw [hstack]; exact h)
      | closing d =>
        rw [unclosed, ht] at h
        cases hs : s.stack with
        | nil => simp [hs] at h
        | cons f outer =>
          by_cases hf : f.delimiter = d
          · rw [step_closing ht, closed_eq hs hf]
            exact ih _ _ (by simpa [hs, hf] using h)
          · simp [hs, hf] at h
      | _ => simp [ht, TokenKind.isDelimiter] at hkind

/-- The places that are reported in the end. -/
theorem ScanState.unbalancedSpans_finish (s : ScanState) :
    unbalancedSpans s.finish = s.unbalanced ++ s.stack.reverse.map Frame.span := by
  have hmissing : unbalancedSpans (if s.rulesSeen then [] else [missingRules s.mode]) = [] := by
    split <;> rfl
  rw [finish, unbalancedSpans_append, unbalancedSpans_append, unbalancedSpans_neverClosed, hmissing,
    List.append_nil, unbalanced]

theorem exists_scanTokens_eq (ts : List Token) :
    ∃ mode, scanTokens ts = ScanState.run { mode } [] ts :=
  ⟨scanMode ts, scanTokens_eq_run ts⟩

/-- **The scanner reports exactly the delimiters that do not match.**  No delimiter is reported
twice, each report stands at one delimiter, those that are not reported match, and nothing is
reported exactly if all of them match. -/
theorem scanScript_unbalanced (source : String) :
    (unbalancedSpans (scanScript source).2).Nodup ∧
      (∀ p ∈ unbalancedSpans (scanScript source).2,
        ∃! t, t ∈ tokenize source ∧ t.kind.isDelimiter = true ∧ t.span = p) ∧
      Balanced (delimitersBut (unbalancedSpans (scanScript source).2) (tokenize source)) ∧
      (unbalancedSpans (scanScript source).2 = [] ↔ Balanced (delimiters (tokenize source))) := by
  have hspans := nodup_span_tokenize source
  obtain ⟨mode, hscan⟩ := exists_scanTokens_eq (tokenize source)
  simp only [scanScript]
  generalize tokenize source = ts at hspans hscan
  have haccounts : Accounts ts [] (unbalancedSpans (scanTokens ts).finish) := by
    rw [ScanState.unbalancedSpans_finish, hscan]
    have hstart : Accounts ([] : List Token).reverse ({ mode } : ScanState).stack
        ({ mode } : ScanState).unbalanced := .start
    have hrun := hstart.run hspans
    rw [← List.append_nil (ScanState.run _ _ _).stack] at hrun
    exact hrun.skip hspans
  refine ⟨haccounts.nodup, fun p hp ↦ ?_, ?_, ?_⟩
  · obtain ⟨t, ht, hrest⟩ := haccounts.reported p hp
    refine ⟨t, ⟨ht, hrest⟩, fun u ⟨hu, _, hspan⟩ ↦ ?_⟩
    exact List.inj_on_of_nodup_map hspans hu ht (hspan.trans hrest.2.symm)
  · exact haccounts.unfinished.balanced
  · refine ⟨fun hnone ↦ ?_, fun hbalanced ↦ ?_⟩
    · have hall := haccounts.unfinished.balanced
      rwa [hnone, delimitersBut_nil_left] at hall
    · have hunclosed := hbalanced.unclosed_eq []
      rw [unclosed_delimiters] at hunclosed
      obtain ⟨hstack, hnone⟩ := ScanState.run_of_unclosed { mode } [] hunclosed
      rw [ScanState.unbalancedSpans_finish, hscan, List.map_eq_nil_iff.mp hstack, hnone]
      rfl

example : unbalancedSpans (scanScript "([)]").2 = [⟨1, 2⟩, ⟨3, 4⟩] := by decide +kernel

end Concord.Script
