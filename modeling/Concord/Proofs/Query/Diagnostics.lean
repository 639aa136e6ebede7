import Concord.Proofs.Query.Edges
import Concord.Proofs.Query.Recognition
import Concord.Proofs.Query.Reporting
import Concord.Proofs.Query.Significance

/-!
# Where syntax problems stand

The syntax diagnostics of a text are the reports of the productions, one for each place, turned
into stretches of the text.  So they go through the text from left to right, and there is at most
one at the end of the text; and if the text ends inside of nodes that lack their closer, there is
one, and it is about the innermost of these nodes if it is about a node at all.

* `placeOf_append` and `start_placeOf_lt` — places further on are places of tokens further on.
* `Document.syntaxDiagnostics_parse` — which diagnostics these are.
* `Document.exists_innermost` — what the last report says of the tree of the text.
* `Document.syntaxDiagnostics_in_order` puts these together, for every text.
-/

set_option autoImplicit false

namespace Concord

namespace Diagnostic

/-- The diagnostic is about a node that lacks its closer. -/
def IsUnclosed (d : Diagnostic) : Prop := d.kind = .unclosedTree ∨ d.kind = .unclosedAlternation

instance : DecidablePred IsUnclosed := fun _ ↦ inferInstanceAs (Decidable (_ ∨ _))

/-- The diagnostic was raised where a text ends that is `stop` bytes long: it stands at the end, or
it is about a node that lacks its closer there. -/
def RaisedAtEnd (stop : Nat) (d : Diagnostic) : Prop := d.span = .emptyAt stop ∨ d.IsUnclosed

end Diagnostic

namespace Query

/-- The node stands between delimiters, and its closer is not there. -/
abbrev Tree.LacksCloser (t : Tree Token) : Prop := t.Unclosed fun t : Token ↦ t.kind

/-! ## Places -/

section Places

variable {stop : Nat}

/-- The place with some tokens ahead is that of the first of them. -/
theorem placeOf_append (before : List Token) (t : Token) (after : List Token) (stop : Nat) :
    placeOf (before ++ t :: after).toArray stop (after.length + 1) = t.span := by
  have hindex : (before ++ t :: after).length - (after.length + 1) = before.length := by
    rw [List.length_append, List.length_cons]
    omega
  rw [placeOf, List.size_toArray, hindex, List.getElem?_toArray]
  · simp
  · simp

/-- Each place but the end is that of a token. -/
theorem exists_of_ahead {ts : List Token} {ahead : Nat} (h : ahead < ts.length) :
    ∃ before t after, ts = before ++ t :: after ∧ after.length = ahead := by
  have hlt : ts.length - 1 - ahead < ts.length := by omega
  refine ⟨ts.take (ts.length - 1 - ahead), ts[ts.length - 1 - ahead],
    ts.drop (ts.length - 1 - ahead + 1), ?_, ?_⟩
  · rw [← List.drop_eq_getElem_cons hlt, List.take_append_drop]
  · rw [List.length_drop]
    omega

/-- The tokens stand one behind the other in a text that is `stop` bytes long. -/
structure Spaced (stop : Nat) (ts : List Token) : Prop where
  pairwise : ts.Pairwise fun t u ↦ t.span.start < u.span.start
  lt : ∀ t ∈ ts, t.span.start < t.span.stop ∧ t.span.stop ≤ stop

/-- **Places further on** have less ahead of them. -/
theorem start_placeOf_lt {ts : List Token} (h : Spaced stop ts) {ahead ahead' : Nat}
    (hlt : ahead' < ahead) (hle : ahead ≤ ts.length) :
    (placeOf ts.toArray stop ahead).start < (placeOf ts.toArray stop ahead').start := by
  obtain ⟨ahead, rfl⟩ := Nat.exists_eq_succ_of_ne_zero (Nat.ne_zero_of_lt hlt)
  obtain ⟨before, t, after, rfl, rfl⟩ := exists_of_ahead hle
  rw [placeOf_append]
  cases ahead' with
  | zero =>
    have ht := h.lt t (List.mem_append_right _ List.mem_cons_self)
    exact Nat.lt_of_lt_of_le ht.1 ht.2
  | succ ahead' =>
    obtain ⟨between, u, after, rfl, rfl⟩ := exists_of_ahead (Nat.lt_of_succ_lt_succ hlt)
    have hpairwise := (List.pairwise_append.mp h.pairwise).2.1
    rw [← List.cons_append, ← List.append_assoc, placeOf_append]
    exact (List.pairwise_cons.mp hpairwise).1 u (List.mem_append_right _ List.mem_cons_self)

/-- A report at a place with tokens ahead stands at one of them, and a report with none ahead stands
at the end. -/
theorem placeOf_mem {ts : List Token} {ahead : Nat} (h : ahead ≤ ts.length) :
    (∃ t ∈ ts, placeOf ts.toArray stop ahead = t.span) ∨ ahead = 0 := by
  cases ahead with
  | zero => exact .inr rfl
  | succ ahead =>
    obtain ⟨before, t, after, rfl, rfl⟩ := exists_of_ahead h
    exact .inl ⟨t, List.mem_append_right _ List.mem_cons_self, placeOf_append ..⟩

end Places

/-! ## Reports as diagnostics -/

section Reports

variable {r : Report} {tokens : Array Token} {stop : Nat}

theorem kind_toDiagnostic (r : Report) (tokens : Array Token) (stop : Nat) :
    (r.toDiagnostic tokens stop).kind = r.problem.kind := by
  rw [Report.toDiagnostic]
  cases r.problem.opener? <;> rfl

theorem Problem.kind_ne_invalidPredicateRegex (p : Problem) : p.kind ≠ .invalidPredicateRegex := by
  cases p <;> exact DiagnosticKind.noConfusion

theorem isUnclosed_toDiagnostic_iff :
    (r.toDiagnostic tokens stop).IsUnclosed ↔ r.problem.opener? ≠ none := by
  rw [Diagnostic.IsUnclosed, kind_toDiagnostic]
  cases r.problem <;> simp [Problem.kind, Problem.opener?]

/-- A report that is about no opener stands where it was made. -/
theorem span_toDiagnostic (h : ¬ (r.toDiagnostic tokens stop).IsUnclosed) :
    (r.toDiagnostic tokens stop).span = placeOf tokens stop r.ahead := by
  rw [isUnclosed_toDiagnostic_iff, not_not] at h
  rw [Report.toDiagnostic, h]

end Reports

namespace Document

/-- The diagnostics of a document that are about its syntax, and not about the pattern of a
predicate. -/
def syntaxDiagnostics (d : Document) : List Diagnostic :=
  d.diagnostics.filter (·.kind ≠ .invalidPredicateRegex)

/-- The tokens of a text that mean something. -/
def significantTokens (source : String) : List Token :=
  (tokenize source).filter (!·.kind.isTrivia)

/-- The reports of a text, one for each place. -/
def reports (source : String) : List Report :=
  onePerPlace (Production.root (significant source)).reports

variable {source : String}

/-- The syntax diagnostics of a text are its reports. -/
theorem syntaxDiagnostics_parse (source : String) :
    (parse source).syntaxDiagnostics = (reports source).map
      (·.toDiagnostic (significantTokens source).toArray source.utf8ByteSize) := by
  have hwarnings : ((Expr.predicatesAll (parse source).exprs).filterMap
      Predicate.warning?).filter (·.kind ≠ .invalidPredicateRegex) = [] := by
    refine List.filter_eq_nil_iff.mpr fun d hd ↦ ?_
    obtain ⟨p, -, hp⟩ := List.mem_filterMap.mp hd
    simp [Predicate.kind_warning hp]
  rw [syntaxDiagnostics, diagnostics_parse, List.filter_append, hwarnings, List.append_nil]
  refine List.filter_eq_self.mpr fun d hd ↦ ?_
  obtain ⟨r, -, rfl⟩ := List.mem_map.mp hd
  simp [kind_toDiagnostic, Problem.kind_ne_invalidPredicateRegex]

theorem mem_significantTokens {t : Token} :
    t ∈ significantTokens source ↔ t ∈ tokenize source ∧ t.kind.isTrivia = false := by
  simp [significantTokens]

theorem spaced_significantTokens (source : String) :
    Spaced source.utf8ByteSize (significantTokens source) where
  pairwise := by
    have h := List.pairwise_map.mp (tiles_tokenize source).pairwise_start
    exact h.filter _
  lt t ht := (tiles_tokenize source).lt_and_le t.span
    (List.mem_map_of_mem (mem_significantTokens.mp ht).1)

theorem length_significant (source : String) :
    (significant source).length = (significantTokens source).length :=
  List.length_map _

theorem told_root (source : String) :
    (Production.root (significant source)).Told (significant source) :=
  Production.root_tells _

theorem pairwise_reports (source : String) :
    (reports source).Pairwise fun r s ↦ s.ahead < r.ahead :=
  pairwise_onePerPlace (told_root source).sorted

theorem mem_of_mem_reports {r : Report} (hr : r ∈ reports source) :
    r ∈ (Production.root (significant source)).reports :=
  (onePerPlaceAfter_sublist none _).subset hr

theorem ahead_le_of_mem_reports {r : Report} (hr : r ∈ reports source) :
    r.ahead ≤ (significantTokens source).length := by
  rw [← length_significant]
  exact ((told_root source).places r (mem_of_mem_reports hr)).2

/-- Only the last report can stand at the end. -/
theorem ahead_pos_of_mem_dropLast {r : Report} (hr : r ∈ (reports source).dropLast) :
    0 < r.ahead := by
  have hpairwise := pairwise_reports source
  have hne : reports source ≠ [] := by
    intro hnil
    rw [hnil] at hr
    contradiction
  rw [← List.dropLast_append_getLast hne, List.pairwise_append] at hpairwise
  exact Nat.lt_of_le_of_lt (Nat.zero_le _)
    (hpairwise.2.2 r hr _ (List.mem_singleton_self _))

/-- Openers are reported at the end only. -/
theorem ahead_eq_zero_of_opener {r : Report} (hr : r ∈ reports source)
    (h : r.problem.opener? ≠ none) : r.ahead = 0 := by
  have hr := mem_of_mem_reports hr
  rcases (told_root source).ends with hsettled | ⟨n, hpending⟩
  · exact absurd (hsettled.quiet r hr) h
  · exact hpending.late r hr h

/-- What is raised at the end is what is reported there. -/
theorem raisedAtEnd_iff {r : Report} (hr : r ∈ reports source) :
    (r.toDiagnostic (significantTokens source).toArray source.utf8ByteSize).RaisedAtEnd
      source.utf8ByteSize ↔ r.ahead = 0 := by
  constructor
  · intro h
    by_contra hne
    have hopener : ¬ (r.toDiagnostic (significantTokens source).toArray
        source.utf8ByteSize).IsUnclosed :=
      fun hunclosed ↦ hne (ahead_eq_zero_of_opener hr (isUnclosed_toDiagnostic_iff.mp hunclosed))
    have hspan := h.resolve_right hopener
    rw [span_toDiagnostic hopener] at hspan
    obtain ⟨t, ht, hplace⟩ := (placeOf_mem (ahead_le_of_mem_reports hr)).resolve_right hne
    have hlt := ((spaced_significantTokens source).lt t ht).1
    rw [← hplace, hspan] at hlt
    exact Nat.lt_irrefl _ hlt
  · intro hzero
    by_cases hopener : (r.toDiagnostic (significantTokens source).toArray
        source.utf8ByteSize).IsUnclosed
    · exact .inr hopener
    · refine .inl ?_
      rw [span_toDiagnostic hopener, hzero]
      rfl

/-! ## The node that the text ends in -/

/-- The trees that the productions built are those of the text without its trivia. -/
theorem bareAll_children (source : String) :
    Tree.bareAll (parse source).tree.children =
      (Production.root (significant source)).trees := by
  have h := bareAll_parse source
  rw [tree_parse] at h ⊢
  rw [Tree.bare, List.cons.injEq, Tree.node.injEq] at h
  exact h.1.2

/-- The first token that means something is the first lexeme of a node without its trivia. -/
theorem kind_first_of_word {kind : NodeKind} {children : List (Tree Token)} {t : Token}
    {k : TokenKind} {w : List ChildKind} (htrim : (Tree.node kind children).Trim)
    (ht : (Tree.node kind children).first? = some t)
    (hword : (Tree.bareAll children).map Tree.childKind = .token k :: w) : t.kind = k := by
  obtain ⟨t', ht', htrivia⟩ := htrim.exists_first?
  obtain rfl : t' = t := Option.some_inj.mp (ht'.symm.trans ht)
  rw [Tree.first?_eq_head?, Tree.leaves, List.head?_eq_some_iff] at ht
  obtain ⟨rest, hrest⟩ := ht
  obtain ⟨b, bs, hbare, hb, -⟩ := List.map_eq_cons_iff.mp hword
  have hlexemes := Tree.leavesAll_bareAll children
  rw [hbare, hrest, significantOf_cons, htrivia, if_neg Bool.false_ne_true] at hlexemes
  cases b with
  | leaf l =>
    rw [Tree.leavesAll, Tree.leaves, List.singleton_append, List.cons.injEq] at hlexemes
    rw [← hlexemes.1]
    exact ChildKind.token.inj hb
  | node kind children => exact absurd hb ChildKind.noConfusion

/-- A node begins with the delimiter that its closer belongs to. -/
theorem kind_first_of_closer {kind : NodeKind} {closer : TokenKind} {children : List (Tree Token)}
    {t : Token} (hkind : kind.closer? = some closer) (hsound : (Tree.node kind children).Sound)
    (htrim : (Tree.node kind children).Trim) (ht : (Tree.node kind children).first? = some t) :
    t.kind = if kind = .alternation then .bracketOpen else .parenOpen := by
  have hform := hsound.form
  cases kind with
  | tree | group | predicate | alternation =>
    obtain ⟨_, rfl, w, -, hword⟩ := hform
    exact kind_first_of_word htrim ht hword.symm
  | _ => contradiction

/-- The innermost unclosed node of a text begins with the token that has as many significant tokens
ahead of it as the node has leaves. -/
theorem placeOf_first {n : Tree Lexeme} {n' : Tree Token} {t : Token}
    (hn' : Tree.InnermostAmong (fun t : Token ↦ t.kind) n' (parse source).tree.children)
    (hbare : n'.bare = [n]) (ht : n'.first? = some t) (htrivia : t.kind.isTrivia = false) :
    t ∈ significantTokens source ∧
      placeOf (significantTokens source).toArray source.utf8ByteSize n.leaves.length = t.span := by
  obtain ⟨before, after, hleaves, hafter⟩ :=
    Tree.InnermostAmong.exists_leaves (parse source).tree.children hn'
  rw [Tree.first?_eq_head?, List.head?_eq_some_iff] at ht
  obtain ⟨rest, hrest⟩ := ht
  rw [leavesAll_children, hrest] at hleaves
  have hnone : after.filter (!·.kind.isTrivia) = [] :=
    List.filter_eq_nil_iff.mpr fun a ha ↦ by simp [hafter a ha]
  have htokens : significantTokens source = before.filter (!·.kind.isTrivia) ++
      t :: rest.filter (!·.kind.isTrivia) := by
    rw [significantTokens, hleaves, List.filter_append, hnone, List.append_nil, List.filter_append,
      List.filter_cons_of_pos (by simp [htrivia])]
  have hlength : n.leaves.length = (rest.filter (!·.kind.isTrivia)).length + 1 := by
    have hlexemes := Tree.leavesAll_bare n'
    rw [hbare, hrest, Tree.leavesAll, Tree.leavesAll, List.append_nil, significantOf_cons, htrivia,
      if_neg Bool.false_ne_true] at hlexemes
    rw [hlexemes, List.length_cons, significantOf, List.length_map]
  rw [htokens, hlength, placeOf_append]
  exact ⟨List.mem_append_right _ List.mem_cons_self, rfl⟩

/-- A node that lacks its closer stands inside of a pattern. -/
theorem exists_of_unclosed {m : Tree Token} (hm : m.Within (parse source).tree)
    (hunclosed : m.LacksCloser) :
    ∃ c ∈ (parse source).tree.children, m.Within c := by
  obtain ⟨hkind, h⟩ := hunclosed
  refine exists_of_within ?_ hm
  rintro rfl
  contradiction

/-- **Where a node lacks its closer, something is reported at the end.** -/
theorem exists_report_of_unclosed {m : Tree Token} (hm : m.Within (parse source).tree)
    (hunclosed : m.LacksCloser) : ∃ r ∈ reports source, r.ahead = 0 := by
  rcases (told_root source).ends with hsettled | ⟨n, hpending⟩
  · have hclosed := hsettled.closed
    rw [← bareAll_children] at hclosed
    obtain ⟨c, hc, hm⟩ := exists_of_unclosed hm hunclosed
    exact absurd hunclosed (Tree.closedAll_of_bareAll _ hclosed c hc m hm)
  · obtain ⟨r, hr, -⟩ := hpending.first
    rw [← find?_onePerPlace] at hr
    exact ⟨r, List.mem_of_find?_eq_some hr, by simpa using List.find?_some hr⟩

/-- **A report about an opener** is about that of the innermost node that lacks its closer. -/
theorem exists_innermost {r : Report} (hr : r ∈ reports source)
    (h : r.problem.opener? ≠ none) :
    ∃ kind children t, (Tree.node kind children).Within (parse source).tree ∧
      (Tree.node kind children).LacksCloser ∧
      (∀ m : Tree Token, m.Within (parse source).tree → m.LacksCloser →
        (Tree.node kind children).Within m) ∧
      (Tree.node kind children).first? = some t ∧ t ∈ significantTokens source ∧
      (t.kind = if kind = .alternation then .bracketOpen else .parenOpen) ∧
      ∃ opener, r.problem = kind.unclosed opener ∧
        placeOf (significantTokens source).toArray source.utf8ByteSize opener = t.span := by
  rcases (told_root source).ends with hsettled | ⟨n, hpending⟩
  · exact absurd (hsettled.quiet r (mem_of_mem_reports hr)) h
  · obtain ⟨r', hr', habout⟩ := hpending.first
    rw [← find?_onePerPlace] at hr'
    -- no other report stands at the end
    obtain rfl : r = r' := by
      have hzero' : r'.ahead = 0 := by simpa using List.find?_some hr'
      have hnodup : ((reports source).map Report.ahead).Nodup :=
        List.pairwise_map.mpr ((pairwise_reports source).imp Nat.ne_of_gt)
      exact List.inj_on_of_nodup_map hnodup hr (List.mem_of_find?_eq_some hr')
        ((ahead_eq_zero_of_opener hr h).trans hzero'.symm)
    obtain ⟨kind, hkind, hproblem⟩ := habout.resolve_left h
    have hinnermost := hpending.innermost
    rw [← bareAll_children] at hinnermost
    obtain ⟨n', hn', hbare⟩ := Tree.exists_innermostAmong_of_bareAll _ hinnermost
    obtain ⟨hunclosed, c, hc, hwithin⟩ := Tree.InnermostAmong.unclosed_within _ hn'
    have hsound := (sound_of_mem_children hc).within hwithin
    have htrim := (trim_of_mem_children hc).within hwithin
    cases hunclosed with
    | @node kind' closer children hcloser hchildren =>
      obtain ⟨t, ht, htrivia⟩ := htrim.exists_first?
      obtain ⟨hmem, hplace⟩ := placeOf_first hn' hbare ht htrivia
      obtain rfl : Tree.node kind' (Tree.bareAll children) = n := List.singleton_inj.mp hbare
      obtain rfl : kind' = kind := Option.some_inj.mp hkind
      refine ⟨kind', children, t, .child hc hwithin, .node hcloser hchildren, ?_, ht, hmem,
        kind_first_of_closer hcloser hsound htrim ht, _, hproblem, hplace⟩
      intro m hm hm'
      obtain ⟨d, hd, hmd⟩ := exists_of_unclosed hm hm'
      exact Tree.InnermostAmong.within_of_unclosed _ hn' d hd m hmd hm'

/-- The diagnostic of a report about an opener reaches from there to the end. -/
theorem toDiagnostic_unclosed {r : Report} {kind : NodeKind} {opener : Nat} {t : Token}
    (ht : t ∈ significantTokens source) (hproblem : r.problem = kind.unclosed opener)
    (hzero : r.ahead = 0)
    (hplace : placeOf (significantTokens source).toArray source.utf8ByteSize opener = t.span) :
    (r.toDiagnostic (significantTokens source).toArray source.utf8ByteSize).span =
        ⟨t.span.start, source.utf8ByteSize⟩ ∧
      (r.toDiagnostic (significantTokens source).toArray source.utf8ByteSize).related =
        [⟨kind.openerNote, t.span⟩] := by
  obtain ⟨hlt, hle⟩ := (spaced_significantTokens source).lt t ht
  have hcover : t.span.cover (.emptyAt source.utf8ByteSize) =
      ⟨t.span.start, source.utf8ByteSize⟩ := by
    rw [Span.cover, Span.mk.injEq]
    exact ⟨Nat.min_eq_left (Nat.le_trans (Nat.le_of_lt hlt) hle), Nat.max_eq_right hle⟩
  rw [Report.toDiagnostic, hzero, hproblem, Problem.opener?_unclosed]
  dsimp only
  rw [hplace]
  exact ⟨hcover, rfl⟩

/-- **Syntax problems are reported in order, and the end of the text once.**  Whatever the text is,
its syntax diagnostics that are not about an unclosed node begin further and further on, each with
a token that means something or at the end; only the last diagnostic is raised at the end; a
diagnostic about an unclosed node reaches from the opener of the innermost such node to the end of
the text, and names this opener; and if some node lacks its closer, something is raised at the
end. -/
theorem syntaxDiagnostics_in_order (source : String) :
    ((parse source).syntaxDiagnostics.filter (¬ ·.IsUnclosed)).Pairwise
        (fun d e ↦ d.span.start < e.span.start) ∧
      (∀ d ∈ (parse source).syntaxDiagnostics, ¬ d.IsUnclosed →
        (∃ t ∈ tokenize source, t.kind.isTrivia = false ∧ d.span = t.span) ∨
          d.span = .emptyAt source.utf8ByteSize) ∧
      (∀ d ∈ (parse source).syntaxDiagnostics.dropLast, ¬ d.RaisedAtEnd source.utf8ByteSize) ∧
      (∀ d ∈ (parse source).syntaxDiagnostics, d.IsUnclosed →
        ∃ (n : Tree Token) (t : Token) (note : String), n.Within (parse source).tree ∧
          n.LacksCloser ∧
          (∀ m : Tree Token, m.Within (parse source).tree → m.LacksCloser → n.Within m) ∧
          n.first? = some t ∧
          (t.kind = .parenOpen ∧ d.kind = .unclosedTree ∨
            t.kind = .bracketOpen ∧ d.kind = .unclosedAlternation) ∧
          d.span = ⟨t.span.start, source.utf8ByteSize⟩ ∧ d.related = [⟨note, t.span⟩]) ∧
      ∀ m : Tree Token, m.Within (parse source).tree → m.LacksCloser →
        ∃ d ∈ (parse source).syntaxDiagnostics, d.RaisedAtEnd source.utf8ByteSize := by
  rw [syntaxDiagnostics_parse]
  refine ⟨?_, ?_, ?_, ?_, ?_⟩
  · rw [List.filter_map, List.pairwise_map]
    refine ((pairwise_reports source).filter _).imp_of_mem fun hr hs hlt ↦ ?_
    obtain ⟨hr, hopener⟩ := List.mem_filter.mp hr
    obtain ⟨hs, hopener'⟩ := List.mem_filter.mp hs
    rw [span_toDiagnostic (of_decide_eq_true hopener),
      span_toDiagnostic (of_decide_eq_true hopener')]
    exact start_placeOf_lt (spaced_significantTokens source) hlt (ahead_le_of_mem_reports hr)
  · refine List.forall_mem_map.mpr fun r hr hopener ↦ ?_
    rw [span_toDiagnostic hopener]
    rcases placeOf_mem (ahead_le_of_mem_reports hr) with ⟨t, ht, hplace⟩ | hzero
    · obtain ⟨ht, htrivia⟩ := mem_significantTokens.mp ht
      exact .inl ⟨t, ht, htrivia, hplace⟩
    · rw [hzero]
      exact .inr rfl
  · rw [← List.map_dropLast]
    refine List.forall_mem_map.mpr fun r hr hend ↦ ?_
    have hlt := ahead_pos_of_mem_dropLast hr
    rw [(raisedAtEnd_iff (List.mem_of_mem_dropLast hr)).mp hend] at hlt
    exact Nat.lt_irrefl 0 hlt
  · refine List.forall_mem_map.mpr fun r hr hopener ↦ ?_
    rw [isUnclosed_toDiagnostic_iff] at hopener
    obtain ⟨kind, children, t, hwithin, hunclosed, hinnermost, ht, hmem, hkind, opener, hproblem,
      hplace⟩ := exists_innermost hr hopener
    obtain ⟨hspan, hrelated⟩ :=
      toDiagnostic_unclosed hmem hproblem (ahead_eq_zero_of_opener hr hopener) hplace
    refine ⟨_, t, _, hwithin, hunclosed, hinnermost, ht, ?_, hspan, hrelated⟩
    rw [kind_toDiagnostic, hproblem, Problem.kind_unclosed]
    by_cases halternation : kind = .alternation
    · rw [if_pos halternation] at hkind
      exact .inr ⟨hkind, if_pos halternation⟩
    · rw [if_neg halternation] at hkind
      exact .inl ⟨hkind, if_neg halternation⟩
  · intro m hm hunclosed
    obtain ⟨r, hr, hzero⟩ := exists_report_of_unclosed hm hunclosed
    exact ⟨_, List.mem_map_of_mem hr, (raisedAtEnd_iff hr).mpr hzero⟩

/-- A text that ends inside of an alternation inside of a tree: the alternation is reported. -/
example : (parse "(a [(b) @c").syntaxDiagnostics.map (fun d ↦ (d.kind, d.span)) =
    [(.unclosedAlternation, ⟨3, 10⟩)] := by
  decide +kernel

end Document

end Query

end Concord
