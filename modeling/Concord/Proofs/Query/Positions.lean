import Concord.Proofs.Query.Margins
import Concord.Proofs.Query.Nesting

/-!
# Positions in query texts

A token of a query stands between two boundaries of characters, and everything else that is placed
in the text is placed by tokens: problems, the nodes of the tree, and the strings in predicates.
So all of these can be cut out of the text.

* `slice?_of_mem_tokenize` — slicing gives the text of a token.
* `Document.sliceable_span` — the stretch of a node.
* `Document.sliceable_of_mem_diagnostics` — the stretches of diagnostics and of their notes.
* `Clause.accepts?` takes a slice of the arguments of a clause, and `Clause.accepts?_eq` says that
  there always is one where it is taken.
* `Document.exists_position` — where a production looks ahead, the tokens go on from there.
-/

set_option autoImplicit false

namespace Concord.Query

/-! ## Tokens and nodes -/

/-- A token can be cut out of its text. -/
theorem Token.Covers.sliceable {t : Token} {source : String} (h : t.Covers source) :
    t.span.Sliceable source := by
  obtain ⟨before, after, hsource, hstart, hstop⟩ := h.text
  rw [utf8Length_append, hstart] at hstop
  have hslice := Span.sliceable_of_toList_eq hsource
  rwa [hstart, hstop] at hslice

/-- **Slicing gives the text of a token.** -/
theorem slice?_of_mem_tokenize {source : String} {t : Token} (h : t ∈ tokenize source) :
    slice? source.toList t.span = some t.text := by
  obtain ⟨before, after, hsource, hstart, hstop⟩ := (covers_of_mem_tokenize h).text
  rw [slice?_eq_some_iff]
  refine ⟨before, after, hsource, ?_⟩
  rw [← utf8Length_append, hstart, hstop]

namespace Document

variable {source : String}

/-- **The stretch of a node** can be cut out of the text. -/
theorem sliceable_span {t : Tree Token} (ht : t ∈ (parse source).tree.children) {kind : NodeKind}
    {children : List (Tree Token)} (h : (Tree.node kind children).Within t) :
    (Tree.node kind children).span.Sliceable source := by
  obtain ⟨⟨first, hfirst, -, hstart⟩, ⟨last, hlast, -, hstop⟩⟩ := trim_span ht h
  have hfirst := (covers_of_mem_tokenize hfirst).sliceable
  have hlast := (covers_of_mem_tokenize hlast).sliceable
  have hlt := (((laid_of_mem_children ht).within h).inside .refl).lt
  exact ⟨Nat.le_of_lt hlt, hstop ▸ hlast.stop_le, hstart ▸ hfirst.start_valid,
    hstop ▸ hlast.stop_valid⟩

end Document

/-! ## Diagnostics -/

section Reports

variable {source : String} {ts : List Token} (hts : ∀ t ∈ ts, t.span.Sliceable source)
include hts

/-- A place is a token or the end of the text. -/
theorem sliceable_placeOf (ahead : Nat) :
    (placeOf ts.toArray source.utf8ByteSize ahead).Sliceable source := by
  have hend := Span.sliceable_emptyAt_end source
  cases ahead with
  | zero => exact hend
  | succ ahead =>
    rw [placeOf, List.size_toArray, List.getElem?_toArray]
    · cases ht : ts[ts.length - (ahead + 1)]? with
      | none => exact hend
      | some t => exact hts t (List.mem_of_getElem? ht)
    · exact Nat.succ_ne_zero ahead

/-- What is reported stands at places, and a delimiter that is not closed between two of them. -/
theorem Report.sliceable_toDiagnostic (r : Report) :
    (r.toDiagnostic ts.toArray source.utf8ByteSize).Sliceable source := by
  have hplace := sliceable_placeOf hts
  rw [Report.toDiagnostic]
  cases r.problem.opener? with
  | none => exact ⟨hplace _, List.forall_mem_nil _⟩
  | some opener => exact ⟨(hplace _).cover (hplace _), by simpa using hplace _⟩

end Reports

/-- A warning stands at a string among the arguments of a predicate. -/
theorem Predicate.exists_of_warning {p : Predicate} {d : Diagnostic} (h : p.warning? = some d) :
    ∃ literal, .str literal ∈ p.args ∧ d.span = literal.span ∧ d.related = [] := by
  rw [Predicate.warning?] at h
  split at h
  · rename_i literal _ harg
    split at h
    · contradiction
    · obtain rfl := Option.some_inj.mp h
      exact ⟨literal, List.mem_of_mem_tail (List.mem_of_head? harg), rfl, rfl⟩
  · contradiction

theorem Tree.exists_of_str_argument {c : Tree Token} {literal : StrLit}
    (h : Argument.ofTree? c = some (.str literal)) :
    ∃ inner, c = .node .str inner ∧ literal = .ofNode c inner := by
  cases c with
  | leaf t =>
    rw [Argument.ofTree?] at h
    split at h <;> simp at h
  | node kind inner =>
    cases kind with
    | str => exact ⟨inner, rfl, (Argument.str.inj (Option.some_inj.mp h)).symm⟩
    | _ => contradiction

/-- A string among the arguments of a predicate is a node in the node of the predicate. -/
theorem Tree.exists_of_str_mem_args {q : Tree Token} {p : Predicate} {literal : StrLit}
    (hread : Predicate.ofTree? q = some p) (h : .str literal ∈ p.args) :
    ∃ children, (Tree.node .str children).Within q ∧
      literal.span = (Tree.node .str children).span := by
  obtain _ | ⟨kind, children⟩ := q
  · contradiction
  cases kind with
  | predicate =>
    obtain ⟨t, -, rfl⟩ := Option.map_eq_some_iff.mp hread
    obtain ⟨c, hc, hargument⟩ := List.mem_filterMap.mp h
    obtain ⟨inner, rfl, rfl⟩ := exists_of_str_argument hargument
    exact ⟨inner, .child hc .refl, rfl⟩
  | _ => contradiction

namespace Document

variable {source : String}

/-- Where a warning stands. -/
theorem sliceable_of_warning {p : Predicate} (hp : p ∈ Expr.predicatesAll (parse source).exprs)
    {d : Diagnostic} (h : p.warning? = some d) : d.Sliceable source := by
  obtain ⟨literal, hliteral, hspan, hrelated⟩ := Predicate.exists_of_warning h
  have hexprs : (parse source).exprs = Expr.ofTrees (parse source).tree.children := rfl
  rw [hexprs, Tree.predicatesAll_ofTrees] at hp
  obtain ⟨t, ht, hp⟩ := List.mem_flatMap.mp hp
  have hsound := sound_of_mem_children ht
  obtain ⟨q, hq, hlisted⟩ := List.mem_filterMap.mp (hsound.predicates_perm.subset hp)
  have hread : Predicate.ofTree? q.2 = some p := by
    rw [Tree.listed] at hlisted
    split at hlisted
    · exact hlisted
    · contradiction
  obtain ⟨children, hwithin, hstr⟩ := Tree.exists_of_str_mem_args hread hliteral
  refine ⟨?_, by simp [hrelated]⟩
  rw [hspan, hstr]
  exact sliceable_span ht (hwithin.trans (hsound.within_of_mem_held q hq))

/-- **The stretches of diagnostics** and of their notes can be cut out of the text. -/
theorem sliceable_of_mem_diagnostics {d : Diagnostic} (hd : d ∈ (parse source).diagnostics) :
    d.Sliceable source := by
  rw [diagnostics_parse] at hd
  rcases List.mem_append.mp hd with hd | hd
  · obtain ⟨r, -, rfl⟩ := List.mem_map.mp hd
    exact r.sliceable_toDiagnostic fun t ht ↦
      (covers_of_mem_tokenize (List.mem_filter.mp ht).1).sliceable
  · obtain ⟨p, hp, h⟩ := List.mem_filterMap.mp hd
    exact sliceable_of_warning hp h

end Document

/-! ## Arguments and tokens by number -/

/-- What `Clause.accepts` answers, if the clause has the arguments that it takes: where the first
one is its subject, it takes all from number 1 on. -/
def Clause.accepts? (c : Clause) (capture text : String) : Option (Option Bool) :=
  if c.subject? ≠ some capture then some none
  else (splitAt? 1 c.args).map fun (_, args) ↦ match textTest c.name with
    | (none, _) => none
    | (some test, negated) => (passes test args text).map (· != negated)

/-- **A clause with a subject has a first argument**, so there is a slice behind it. -/
theorem Clause.accepts?_eq (c : Clause) (capture text : String) :
    c.accepts? capture text = some (c.accepts capture text) := by
  rw [accepts?, accepts]
  split
  · rfl
  · rename_i hsubject
    obtain ⟨arg, args, hargs⟩ : ∃ arg args, c.args = [arg] ++ args := by
      cases hargs : c.args with
      | nil => simp [subject?, hargs] at hsubject
      | cons arg args => exact ⟨arg, args, rfl⟩
    rw [hargs, ← List.length_singleton (a := arg), splitAt?_append]
    rfl

namespace Document

variable {source : String}

/-- **Where a pattern runs**, the tokens of the text go on from there. -/
theorem exists_position {depth levels : Nat} {ms : List Lexeme}
    (h : Production.Inside (significant source) depth levels ms) :
    ∃ pos front back, splitAt? pos (significantTokens source) = some (front, back) ∧
      back.map Token.toLexeme = ms := by
  obtain ⟨before, hsuffix⟩ := h.suffix
  have htokens : (significantTokens source).map Token.toLexeme = before ++ ms := hsuffix.symm
  obtain ⟨front, back, htokens, -, hback⟩ := List.map_eq_append_iff.mp htokens
  exact ⟨front.length, front, back, by rw [htokens, splitAt?_append], hback⟩

end Document

end Concord.Query
