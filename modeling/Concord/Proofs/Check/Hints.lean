import Concord.Check.Report
import Concord.Listing.Rules
import Concord.Proofs.Grammar.Names
import Concord.Proofs.Scope.Under
import Concord.Proofs.Text.Suggestion

/-!
# Hints tell the truth

A hint speaks about the artifacts: it names something that is there, or says what is missing.  What
it says can be stated without the way in which it was found.

* `Shows` — how a list of names is written, with at most five of them.
* `DeclaredUnder` — the scopes under another one, in the order in which they are first declared.
* `ScopeTold`, `RuleTold`, `CaptureTold` and `CaptureNameTold` — what the hints of failed checks
  say.

`Outcome.ofCheck_told` puts these together for all checks.
-/

set_option autoImplicit false

namespace Concord

open Query (withoutMarker)

/-! ## Texts -/

/-- Texts with different beginnings differ. -/
theorem append_ne_append {s t : String} (h : ¬ s.toList <+: t.toList) (h' : ¬ t.toList <+: s.toList)
    (u v : String) : s ++ u ≠ t ++ v := by
  intro heq
  have hlist := congrArg String.toList heq
  rw [String.toList_append, String.toList_append] at hlist
  have hs : s.toList <+: t.toList ++ v.toList := hlist ▸ List.prefix_append _ _
  exact (List.prefix_or_prefix_of_prefix hs (List.prefix_append _ _)).elim h h'

theorem didYouMean_eq (c : String) : didYouMean c = "did you mean `" ++ (c ++ "`?") :=
  String.append_assoc

theorem didYouMean_injective {c d : String} (h : didYouMean c = didYouMean d) : c = d := by
  rwa [didYouMean_eq, didYouMean_eq, String.append_right_inj, String.append_left_inj] at h

/-- How names are written: all of them if they are not more than five, and else the first five and
the number of the others. -/
inductive Shows : List String → String → Prop
  | all {names : List String} (h : names.length ≤ 5) : Shows names (String.intercalate ", " names)
  | front {shown hidden : List String} (hshown : shown.length = 5) (hhidden : hidden ≠ []) :
    Shows (shown ++ hidden)
      (String.intercalate ", " shown ++ ", and " ++ toString hidden.length ++ " more")

theorem shows_nameList (names : List String) : Shows names (nameList names) := by
  rw [nameList, maxHintNames]
  split
  · rename_i hlt
    have hshown : (names.take 5).length = 5 := List.length_take_of_le (Nat.le_of_lt hlt)
    have hhidden : names.drop 5 ≠ [] := by
      rw [ne_eq, List.drop_eq_nil_iff, Nat.not_le]
      exact hlt
    have h := Shows.front hshown hhidden
    rw [List.take_append_drop, List.length_drop] at h
    simpa only [String.append_assoc] using h
  · rename_i hle
    have hlength : names.length ≤ 5 := Nat.le_of_not_lt hle
    rw [List.take_of_length_le hlength, String.append_empty]
    exact .all hlength

/-- A text is cut at its last dot. -/
theorem beforeLastDot?_eq_some_iff {s front : String} :
    beforeLastDot? s = some front ↔
      ∃ last, s = front ++ "." ++ last ∧ '.' ∉ last.toList := by
  rw [beforeLastDot?]
  constructor
  · intro h
    split at h
    · contradiction
    · rename_i dot rest hdrop
      obtain rfl : String.ofList rest.reverse = front := Option.some.inj h
      have hdot : dot = '.' := by
        have hhead := List.head?_dropWhile_not (· != '.') s.toList.reverse
        rw [hdrop] at hhead
        simpa using hhead
      refine ⟨String.ofList (s.toList.reverse.takeWhile (· != '.')).reverse, ?_, ?_⟩
      · have hsplit := List.takeWhile_append_dropWhile (p := (· != '.')) (l := s.toList.reverse)
        rw [hdrop, hdot] at hsplit
        have hback := congrArg List.reverse hsplit
        rw [← String.toList_inj]
        simpa using hback.symm
      · rw [String.toList_ofList, List.mem_reverse]
        intro hmem
        have hne := List.all_eq_true.mp
          (List.all_takeWhile (p := (· != '.')) (l := s.toList.reverse)) _ hmem
        simp at hne
  · rintro ⟨last, rfl, hlast⟩
    have hreverse : (front ++ "." ++ last).toList.reverse =
        last.toList.reverse ++ '.' :: front.toList.reverse := by simp
    have hpass : ∀ c ∈ last.toList.reverse, (c != '.') = true := by
      intro c hc
      have hne : c ≠ '.' := fun heq ↦ hlast (heq ▸ List.mem_reverse.mp hc)
      simpa using hne
    rw [hreverse, List.dropWhile_append_of_pos hpass, List.dropWhile_cons_of_neg (by simp)]
    simp

/-! ## What hints say -/

/-- The scopes under another one, in the order in which they are first declared. -/
structure DeclaredUnder (g : ScopeGrammar) (front : String) (names : List String) : Prop where
  mem_iff : ∀ s, s ∈ names ↔ g.hasScope s = true ∧ segments front <+: segments s
  ordered : names.Pairwise fun s t ↦ g.named.idxOf s < g.named.idxOf t

theorem ScopeGrammar.declaredUnder (g : ScopeGrammar) (front : String) :
    DeclaredUnder g front (g.scopesUnder front) where
  mem_iff s := by rw [mem_scopesUnder_iff, isUnder_iff]
  ordered := g.pairwise_scopesUnder front

/-- The hint for a scope that is not declared: one that is, within two edits and with none closer;
else those that are declared under its front part; and nothing if there are none of these either. -/
structure ScopeTold (a : Artifacts) (scope : String) (hint : Option String) : Prop where
  close : ∀ c, hint = some (didYouMean c) → (Check.scope c).holds a = true ∧
    (∃ n, n ≤ 2 ∧ IsDistance c scope n) ∧
      ∀ d, (Check.scope d).holds a = true → ¬ Closer scope d c
  beside : ∀ text, hint = some text → (∀ c, text ≠ didYouMean c) →
    ∃ front last names listed, text = "declared under `" ++ front ++ "`: " ++ listed ∧
      scope = front ++ "." ++ last ∧ '.' ∉ last.toList ∧
        DeclaredUnder a.reference front names ∧ names ≠ [] ∧ Shows names listed
  silent : hint = none → ∀ d, (Check.scope d).holds a = true → ¬ InReach scope d ∧
    ∀ front last, scope = front ++ "." ++ last → '.' ∉ last.toList →
      ¬ segments front <+: segments d

/-- The hint for a rule that is not declared: that it is used if it is, and else a declared one. -/
structure RuleTold (a : Artifacts) (rule : String) (hint : Option String) : Prop where
  undeclared : hint = some ("`$." ++ rule ++ "` is referenced but never declared") ↔
    rule ∈ (RulesListing.ofGrammar a.grammar.grammar).undeclared
  close : ∀ c, hint = some (didYouMean c) → (Check.rule c).holds a = true
  form : ∀ text, hint = some text →
    text = "`$." ++ rule ++ "` is referenced but never declared" ∨ ∃ c, text = didYouMean c

/-- The hint for a node type without a capture: those that it has instead, in the order of the
patterns. -/
structure CaptureTold (a : Artifacts) (node : String) (hint : Option String) : Prop where
  captured : (∃ listed, hint = some ("`(" ++ node ++ ")` is captured as " ++ listed)) ↔
    ∃ p ∈ a.highlights.patterns, ∃ pair ∈ p.captures, pair.nodeType = node
  shows : ∀ listed, hint = some ("`(" ++ node ++ ")` is captured as " ++ listed) →
    Shows (((a.highlights.patterns.flatMap Query.Pattern.captures).filter
      (·.nodeType = node)).map fun pair ↦ "@" ++ pair.capture) listed

/-- The hint for a capture that no predicate or text was found for: that no pattern has it, and one
that some pattern has.  There is none if a pattern has it. -/
structure CaptureNameTold (a : Artifacts) (name : String) (hint : Option String) : Prop where
  none_iff : hint = none ↔ ∃ p ∈ a.highlights.patterns, p.capturesName name = true
  close : ∀ c, hint = some ("no pattern captures `@" ++ name ++ "`; did you mean `@" ++ c ++ "`?") →
    ∃ p ∈ a.highlights.patterns, p.capturesName c = true
  form : ∀ text, hint = some text → text = "no pattern captures `@" ++ name ++ "`" ∨
    ∃ c, text = "no pattern captures `@" ++ name ++ "`; did you mean `@" ++ c ++ "`?"

/-- What the hint for a failed check says. -/
def Check.Told (a : Artifacts) : Check → Option String → Prop
  | scope s, hint => ScopeTold a s hint
  | rule r, hint => RuleTold a r hint
  | capture n _, hint => CaptureTold a n hint
  | predicate c _ _, hint | accepts c _, hint => CaptureNameTold a (withoutMarker '@' c) hint
  | contains _ _, hint => hint = none

/-! ## The hints of the four kinds of names -/

section Told

variable {a : Artifacts}

namespace ScopeTold

variable {scope : String}

/-- A declared scope is offered if it is the first of the nearest ones. -/
theorem of_close {c : String} (h : (Check.scope scope).holds a = false)
    (hnearest : FirstNearest scope a.reference.scopes c) :
    ScopeTold a scope (some (didYouMean c)) := by
  refine ⟨fun c' hc' ↦ ?_, fun text htext hne ↦ ?_, fun hnone ↦ by contradiction⟩
  · obtain rfl := didYouMean_injective (Option.some.inj hc')
    refine ⟨ScopeGrammar.mem_scopes_iff.mp hnearest.mem, hnearest.inReach.2, fun d hd ↦ ?_⟩
    refine hnearest.nearest d (ScopeGrammar.mem_scopes_iff.mpr hd) ?_
    rintro rfl
    rw [h] at hd
    contradiction
  · exact absurd (Option.some.inj htext).symm (hne c)

/-- Scopes are listed if they are those under the front part. -/
theorem of_beside {front last listed : String} {names : List String}
    (hscope : scope = front ++ "." ++ last) (hlast : '.' ∉ last.toList)
    (hunder : DeclaredUnder a.reference front names) (hne : names ≠ [])
    (hshows : Shows names listed) :
    ScopeTold a scope (some ("declared under `" ++ front ++ "`: " ++ listed)) := by
  refine ⟨fun c hc ↦ ?_, fun text htext _ ↦ ?_, fun hnone ↦ by contradiction⟩
  · have heq : "declared under `" ++ (front ++ "`: " ++ listed) =
        "did you mean `" ++ (c ++ "`?") := by
      simpa only [didYouMean_eq, String.append_assoc] using Option.some.inj hc
    exact absurd heq (append_ne_append (by decide) (by decide) _ _)
  · exact ⟨front, last, names, listed, (Option.some.inj htext).symm, hscope, hlast, hunder, hne,
      hshows⟩

/-- Where nothing is found, nothing is said. -/
theorem of_none (h : ∀ d, (Check.scope d).holds a = true → ¬ InReach scope d ∧
      ∀ front last, scope = front ++ "." ++ last → '.' ∉ last.toList →
        ¬ segments front <+: segments d) : ScopeTold a scope none :=
  ⟨fun _ hc ↦ by contradiction, fun _ htext ↦ by contradiction, fun _ ↦ h⟩

end ScopeTold

/-- The hint for a scope tells the truth. -/
theorem scopeTold {scope : String} (h : (Check.scope scope).holds a = false) :
    ScopeTold a scope (scopeHint? a.reference scope) := by
  cases hsuggest : suggest scope a.reference.scopes with
  | some c =>
    have hhint : scopeHint? a.reference scope = some (didYouMean c) := by
      rw [scopeHint?, hsuggest]
    rw [hhint]
    exact .of_close h (firstNearest_of_suggest hsuggest)
  | none =>
    have hfar : ∀ d, (Check.scope d).holds a = true → ¬ InReach scope d := by
      intro d hd hreach
      obtain ⟨c, hc⟩ := exists_suggest_iff.mpr ⟨d, ScopeGrammar.mem_scopes_iff.mpr hd, hreach⟩
      rw [hsuggest] at hc
      contradiction
    cases hfront : beforeLastDot? scope with
    | none =>
      have hhint : scopeHint? a.reference scope = none := by
        simp only [scopeHint?, hsuggest, hfront]
      rw [hhint]
      refine .of_none fun d hd ↦ ⟨hfar d hd, fun front last hscope hlast ↦ ?_⟩
      rw [beforeLastDot?_eq_some_iff.mpr ⟨last, hscope, hlast⟩] at hfront
      contradiction
    | some front =>
      have hunder := a.reference.declaredUnder front
      obtain ⟨last, hscope, hlast⟩ := beforeLastDot?_eq_some_iff.mp hfront
      cases hnames : a.reference.scopesUnder front with
      | nil =>
        have hhint : scopeHint? a.reference scope = none := by
          simp only [scopeHint?, hsuggest, hfront, hnames]
        rw [hhint]
        refine .of_none fun d hd ↦ ⟨hfar d hd, fun front' last' hscope' hlast' hsegments ↦ ?_⟩
        obtain rfl : front' = front := by
          rw [beforeLastDot?_eq_some_iff.mpr ⟨last', hscope', hlast'⟩] at hfront
          exact Option.some.inj hfront
        have hmem := (hunder.mem_iff d).mpr ⟨hd, hsegments⟩
        rw [hnames] at hmem
        exact List.not_mem_nil hmem
      | cons name names =>
        have hhint : scopeHint? a.reference scope =
            some ("declared under `" ++ front ++ "`: " ++ nameList (name :: names)) := by
          simp only [scopeHint?, hsuggest, hfront, hnames]
        rw [hnames] at hunder
        rw [hhint]
        exact .of_beside hscope hlast hunder (List.cons_ne_nil _ _) (shows_nameList _)

/-- The hint for a rule tells the truth. -/
theorem ruleTold {rule : String} (h : (Check.rule rule).holds a = false) :
    RuleTold a rule (ruleHint? a.grammar.grammar rule) := by
  have hundeclared : rule ∈ (RulesListing.ofGrammar a.grammar.grammar).undeclared ↔
      a.grammar.grammar.isReferenced rule = true := by
    have hnot : a.grammar.grammar.hasRule rule = false := h
    rw [RulesListing.ofGrammar, Grammar.undeclared, List.mem_filter, Grammar.isReferenced, hnot]
    simp
  have hne : ∀ c, didYouMean c ≠ "`$." ++ rule ++ "` is referenced but never declared" := by
    intro c heq
    rw [didYouMean_eq, String.append_assoc] at heq
    exact append_ne_append (by decide) (by decide) _ _ heq
  rw [ruleHint?]
  by_cases hused : a.grammar.grammar.isReferenced rule = true
  · rw [if_pos hused]
    refine ⟨iff_of_true rfl (hundeclared.mpr hused), fun c hc ↦ ?_, fun text htext ↦ ?_⟩
    · exact absurd (Option.some.inj hc).symm (hne c)
    · exact .inl (Option.some.inj htext).symm
  · rw [if_neg hused]
    refine ⟨iff_of_false (fun heq ↦ ?_) (mt hundeclared.mp hused), fun c hc ↦ ?_,
      fun text htext ↦ ?_⟩
    · obtain ⟨c, -, hc⟩ := Option.map_eq_some_iff.mp heq
      exact hne c hc
    · obtain ⟨c', hsuggest, hc'⟩ := Option.map_eq_some_iff.mp hc
      obtain rfl := didYouMean_injective hc'
      exact Grammar.mem_ruleNames_iff.mp (firstNearest_of_suggest hsuggest).mem
    · obtain ⟨c, -, hc⟩ := Option.map_eq_some_iff.mp htext
      exact .inr ⟨c, hc.symm⟩

theorem capturesOf_eq_nil_iff {node : String} :
    a.highlights.capturesOf node = [] ↔
      ¬ ∃ p ∈ a.highlights.patterns, ∃ pair ∈ p.captures, pair.nodeType = node := by
  simp only [Query.Document.capturesOf, Query.Document.captures, List.filter_eq_nil_iff,
    List.mem_flatMap, beq_iff_eq]
  grind

/-- The hint for a node type tells the truth. -/
theorem captureTold (node capture : String) :
    CaptureTold a node (some (captureHint a.highlights node capture)) := by
  have hcaptured : a.highlights.capturesOf node ≠ [] ↔
      ∃ p ∈ a.highlights.patterns, ∃ pair ∈ p.captures, pair.nodeType = node := by
    rw [ne_eq, capturesOf_eq_nil_iff, not_not]
  cases hpairs : a.highlights.capturesOf node with
  | nil =>
    -- no other hint begins as the one with a list does
    have hother : ∀ listed, captureHint a.highlights node capture ≠
        "`(" ++ node ++ ")` is captured as " ++ listed := by
      intro listed
      simp only [captureHint, hpairs, String.append_assoc]
      split
      · exact append_ne_append (by decide) (by decide) _ _
      · exact append_ne_append (by decide) (by decide) _ _
    refine ⟨iff_of_false ?_ (mt hcaptured.mpr (not_not.mpr hpairs)), fun listed hlisted ↦ ?_⟩
    · rintro ⟨listed, hlisted⟩
      exact hother listed (Option.some.inj hlisted)
    · exact absurd (Option.some.inj hlisted) (hother listed)
  | cons pair pairs =>
    have hhint : captureHint a.highlights node capture = "`(" ++ node ++ ")` is captured as " ++
        nameList ((a.highlights.capturesOf node).map fun pair ↦ "@" ++ pair.capture) := by
      simp only [captureHint, hpairs]
    have hne : a.highlights.capturesOf node ≠ [] := by
      rw [hpairs]
      exact List.cons_ne_nil _ _
    refine ⟨iff_of_true ⟨_, congrArg some hhint⟩ (hcaptured.mp hne), fun listed hlisted ↦ ?_⟩
    rw [hhint, Option.some.injEq, String.append_right_inj] at hlisted
    rw [← hlisted]
    exact shows_nameList _

theorem mem_captureNames_iff {name : String} :
    name ∈ a.highlights.captureNames ↔
      ∃ p ∈ a.highlights.patterns, p.capturesName name = true := by
  simp only [Query.Document.captureNames, Query.Document.captures, List.mem_eraseDups,
    List.mem_map, List.mem_flatMap, Query.Pattern.capturesName, List.any_eq_true, beq_iff_eq]
  grind

/-- The hint for a capture tells the truth. -/
theorem captureNameTold (name : String) :
    CaptureNameTold a name (captureNameHint? a.highlights name) := by
  rw [captureNameHint?]
  by_cases hname : a.highlights.captureNames.contains name = true
  · rw [if_pos hname]
    rw [List.contains_iff_mem, mem_captureNames_iff] at hname
    exact ⟨iff_of_true rfl hname, fun c hc ↦ by contradiction, fun text htext ↦ by contradiction⟩
  · rw [if_neg hname]
    rw [List.contains_iff_mem, mem_captureNames_iff] at hname
    cases hsuggest : suggest name a.highlights.captureNames with
    | some close =>
      have htext : "no pattern captures `@" ++ name ++ "`" ++ "; did you mean `@" ++ close ++ "`?" =
          "no pattern captures `@" ++ name ++ "`; did you mean `@" ++ close ++ "`?" := by
        have hjoin : "`; did you mean `@" = "`" ++ "; did you mean `@" := rfl
        rw [hjoin, ← String.append_assoc]
      dsimp only
      rw [htext]
      refine ⟨iff_of_false (fun h ↦ by contradiction) hname, fun c hc ↦ ?_, fun text hsaid ↦ ?_⟩
      · rw [Option.some.injEq, String.append_left_inj, String.append_right_inj] at hc
        rw [← hc]
        exact mem_captureNames_iff.mp (firstNearest_of_suggest hsuggest).mem
      · exact .inr ⟨close, (Option.some.inj hsaid).symm⟩
    | none =>
      refine ⟨iff_of_false (fun h ↦ by contradiction) hname, fun c hc ↦ ?_, fun text hsaid ↦ ?_⟩
      · have hlength := congrArg String.length (Option.some.inj hc)
        have hshort : "`".length < "`; did you mean `@".length := by decide
        simp only [String.length_append] at hlength
        omega
      · exact .inl (Option.some.inj hsaid).symm

end Told

/-- **The hints for failed checks tell the truth**, and checks that pass have none. -/
theorem Outcome.ofCheck_told (a : Artifacts) (category : String) (c : Check) :
    ((Outcome.ofCheck a category c).passed = true →
        (Outcome.ofCheck a category c).hint = none) ∧
      ((Outcome.ofCheck a category c).passed = false →
        c.Told a (Outcome.ofCheck a category c).hint) := by
  have hpassed : (Outcome.ofCheck a category c).passed = c.holds a := rfl
  have hhint : (Outcome.ofCheck a category c).hint = if c.holds a then none else c.hint? a := rfl
  rw [hpassed, hhint]
  constructor
  · intro h
    rw [if_pos h]
  · intro h
    rw [h, if_neg Bool.false_ne_true]
    cases c with
    | scope s => exact scopeTold h
    | rule r => exact ruleTold h
    | capture n c => exact captureTold n _
    | predicate c p argument => exact captureNameTold _
    | accepts c text => exact captureNameTold _
    | contains role text => rfl

/-- A missing scope beside six others, in artifacts with nothing else in them. -/
theorem Outcome.ofCheck_told_beside :
    let scopes := "kw.if kw.else kw.while kw.for kw.break kw.continue"
    let a : Artifacts :=
      { grammar := ⟨"", {}, []⟩
        highlights := Query.Document.parse ""
        reference := { declarations := [⟨scopes, .name, "patterns[0]"⟩] }
        referenceSource := "" }
    let o := Outcome.ofCheck a "keywords" (.scope "kw.unless")
    o.passed = false ∧
      o.hint = some
        "declared under `kw`: kw.if, kw.else, kw.while, kw.for, kw.break, and 1 more" ∧
      ScopeTold a "kw.unless" o.hint := by
  intro scopes a o
  have hfailed : o.passed = false := by decide +kernel
  have htold := (Outcome.ofCheck_told a "keywords" (.scope "kw.unless")).2 hfailed
  exact ⟨hfailed, by decide +kernel, htold⟩

/-! ## The pair in a hint for a node type -/

section Pair

variable {a : Artifacts} {node : String}

theorem mem_capturedNodeTypes_iff :
    node ∈ a.highlights.capturedNodeTypes ↔
      ∃ p ∈ a.highlights.patterns, ∃ pair ∈ p.captures, pair.nodeType = node := by
  simp only [Query.Document.capturedNodeTypes, Query.Document.captures, List.mem_eraseDups,
    List.mem_map, List.mem_flatMap]
  grind

theorem holds_capture_iff {capture : String} :
    (Check.capture node capture).holds a = true ↔
      ∃ p ∈ a.highlights.patterns, ∃ pair ∈ p.captures,
        pair.nodeType = node ∧ pair.capture = withoutMarker '@' capture := by
  simp only [Check.holds, Query.Document.presentsCapture, Query.Document.hasCapture,
    Query.Document.capturesOf, Query.Document.captures, List.any_eq_true, List.mem_filter,
    List.mem_flatMap, beq_iff_eq]
  grind

/-- A pair is offered if nothing is attached to the node type, with a node type that was probably
meant. -/
theorem captureHint_eq_iff {capture close : String} :
    captureHint a.highlights node capture =
        "did you mean `(" ++ close ++ ") @" ++ capture ++ "`?" ↔
      a.highlights.capturesOf node = [] ∧
        suggest node a.highlights.capturedNodeTypes = some close := by
  rw [captureHint]
  split
  · rename_i hnone
    cases suggest node a.highlights.capturedNodeTypes with
    | some c =>
      simp only [String.append_left_inj, String.append_right_inj, Option.some.injEq, hnone,
        true_and]
    | none =>
      refine iff_of_false ?_ (by simp)
      simp only [String.append_assoc]
      exact append_ne_append (by decide) (by decide) _ _
  · rename_i hsome
    refine iff_of_false ?_ fun h ↦ hsome h.1
    simp only [String.append_assoc]
    exact append_ne_append (by decide) (by decide) _ _

end Pair

/-- **The pair in a hint for a node type** is made of the nearest node type with a capture and the
capture that was asked for.  It is offered if nothing is attached to the node type that was asked
for, and it need not exist: its check passes if the capture is one of those of the nearest node
type. -/
theorem Outcome.ofCheck_capture_nearest (a : Artifacts) (category node capture close : String) :
    ((Outcome.ofCheck a category (.capture node capture)).hint =
          some ("did you mean `(" ++ close ++ ") @" ++ withoutMarker '@' capture ++ "`?") ↔
        (¬ ∃ p ∈ a.highlights.patterns, ∃ pair ∈ p.captures, pair.nodeType = node) ∧
          FirstNearest node a.highlights.capturedNodeTypes close) ∧
      (close ∈ a.highlights.capturedNodeTypes ↔
        ∃ p ∈ a.highlights.patterns, ∃ pair ∈ p.captures, pair.nodeType = close) ∧
      ((Check.capture close capture).holds a = true ↔
        ∃ p ∈ a.highlights.patterns, ∃ pair ∈ p.captures,
          pair.nodeType = close ∧ pair.capture = withoutMarker '@' capture) := by
  have hhint : (Outcome.ofCheck a category (.capture node capture)).hint =
      if (Check.capture node capture).holds a then none
      else some (captureHint a.highlights node (withoutMarker '@' capture)) := rfl
  refine ⟨?_, mem_capturedNodeTypes_iff, holds_capture_iff⟩
  rw [hhint, ← capturesOf_eq_nil_iff, ← suggest_eq_some_iff, ← captureHint_eq_iff]
  split
  · rename_i hpassed
    refine iff_of_false (by simp) fun h ↦ ?_
    -- a check on a node type without captures fails
    obtain ⟨p, hp, pair, hpair, hnode, -⟩ := holds_capture_iff.mp hpassed
    exact capturesOf_eq_nil_iff.mp (captureHint_eq_iff.mp h).1 ⟨p, hp, pair, hpair, hnode⟩
  · exact Option.some_inj

/-- Only `@variable` is attached to `identifier`, but `@keyword` is offered with it. -/
theorem Outcome.capture_offered_unattached :
    let a : Artifacts :=
      { grammar := ⟨"", {}, []⟩
        highlights := Query.Document.parse "(identifier) @variable"
        reference := {}
        referenceSource := "" }
    let o := Outcome.ofCheck a "words" (.capture "identifer" "keyword")
    o.passed = false ∧ o.hint = some "did you mean `(identifier) @keyword`?" ∧
      (Check.capture "identifier" "keyword").holds a = false := by
  decide +kernel

end Concord
