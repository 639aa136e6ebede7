import Concord.Proofs.Query.Unclosed

/-!
# In what order problems are reported

A production reports a problem where it stands, and never goes back.  So the reports of a text are
in the order of their places; and the only place where an opener can be reported is the end, since
what stands between delimiters is read up to its closer or up to the end.

* `Parsed.Told` says this of one result, and of what it built: either every node is closed and
  there is no word of an opener, or the text has ended inside of a node, and then the first report
  at the end of the text is about the innermost such node if it is about a node at all.
* `delimited_told` is the step for what stands between delimiters, and `pattern_tells` goes through
  all productions.
* `pairwise_onePerPlace` and `find?_onePerPlace` say which reports are kept.
-/

set_option autoImplicit false

namespace Concord.Query

/-- What is reported of a node of the kind that lacks its closer. -/
def NodeKind.unclosed : NodeKind → (opener : Nat) → Problem
  | alternation, opener => .unclosedAlternation opener
  | _, opener => .unclosedTree opener

/-- The note that goes to the opener of such a node. -/
def NodeKind.openerNote : NodeKind → String
  | alternation => "alternation started here"
  | _ => "node started here"

theorem Problem.opener?_unclosed (kind : NodeKind) (opener : Nat) :
    (kind.unclosed opener).opener? = some (opener, kind.openerNote) := by
  cases kind <;> rfl

theorem Problem.kind_unclosed (kind : NodeKind) (opener : Nat) :
    (kind.unclosed opener).kind =
      if kind = .alternation then .unclosedAlternation else .unclosedTree := by
  cases kind <;> rfl

/-! ## What one result tells -/

/-- The report is about no opener, or it is about the opener of the node `n`, which is the last one
of the text. -/
def Report.About (r : Report) (n : Tree Lexeme) : Prop :=
  r.problem.opener? = none ∨
    ∃ kind, n.kind? = some kind ∧ r.problem = kind.unclosed n.leaves.length

namespace Parsed

/-- Every node that was built is closed, and no report is about an opener. -/
structure Settled (p : Parsed) : Prop where
  closed : ∀ t ∈ p.trees, t.Closed Lexeme.kind
  quiet : ∀ r ∈ p.reports, r.problem.opener? = none

/-- The text has ended inside of the node `n` and maybe of nodes around it. -/
structure Pending (p : Parsed) (n : Tree Lexeme) : Prop where
  rest : p.rest = []
  innermost : Tree.InnermostAmong Lexeme.kind n p.trees
  /-- Openers are reported at the end only. -/
  late : ∀ r ∈ p.reports, r.problem.opener? ≠ none → r.ahead = 0
  /-- The first report at the end is there and is about no other opener. -/
  first : ∃ r, p.reports.find? (·.ahead = 0) = some r ∧ r.About n

/-- What the result of reading `ls` says of its problems. -/
structure Told (p : Parsed) (ls : List Lexeme) : Prop where
  rest_le : p.rest.length ≤ ls.length
  /-- The reports are in the order of their places. -/
  sorted : p.reports.Pairwise fun r s ↦ s.ahead ≤ r.ahead
  /-- Their places are among what was read, or right behind that. -/
  places : ∀ r ∈ p.reports, p.rest.length ≤ r.ahead ∧ r.ahead ≤ ls.length
  ends : p.Settled ∨ ∃ n, p.Pending n

variable {p : Parsed} {ls : List Lexeme}

theorem Accounts.trees_eq_nil (h : p.Accounts []) : p.trees = [] := by
  have hleaves : Tree.leavesAll p.trees = [] := (List.append_eq_nil_iff.mp h.leaves).1
  have hsolid := h.solid
  cases htrees : p.trees with
  | nil => rfl
  | cons t ts =>
    rw [htrees] at hleaves hsolid
    cases t with
    | leaf l => simp [Tree.leavesAll, Tree.leaves] at hleaves
    | node kind children =>
      exact absurd (List.append_eq_nil_iff.mp hleaves).1 hsolid.1.1

/-- Only closed trees and no reports: there is nothing to tell. -/
theorem told_of_quiet {ts : List (Tree Lexeme)} {rest : List Lexeme}
    (hle : rest.length ≤ ls.length) (h : ∀ t ∈ ts, t.Closed Lexeme.kind) :
    Told ⟨ts, [], rest⟩ ls :=
  ⟨hle, .nil, List.forall_mem_nil _, .inl ⟨h, List.forall_mem_nil _⟩⟩

/-- One report at the place where reading begins. -/
theorem told_of_report {ts : List (Tree Lexeme)} {problem : Problem} {rest : List Lexeme}
    (hle : rest.length ≤ ls.length) (h : ∀ t ∈ ts, t.Closed Lexeme.kind)
    (hproblem : problem.opener? = none) : Told ⟨ts, [⟨ls.length, problem⟩], rest⟩ ls :=
  ⟨hle, List.pairwise_singleton _ _, List.forall_mem_singleton.mpr ⟨hle, Nat.le_refl _⟩,
    .inl ⟨h, List.forall_mem_singleton.mpr hproblem⟩⟩

/-- **Step**: what is read on tells of places further on. -/
theorem Told.andThen {next : Production} (hp : p.Told ls)
    (haccounts : (next p.rest).Accounts p.rest) (hnext : (next p.rest).Told p.rest) :
    (p.andThen next).Told ls where
  rest_le := Nat.le_trans hnext.rest_le hp.rest_le
  sorted := by
    refine List.pairwise_append.mpr ⟨hp.sorted, hnext.sorted, fun r hr s hs ↦ ?_⟩
    exact Nat.le_trans (hnext.places s hs).2 (hp.places r hr).1
  places r hr := by
    rcases List.mem_append.mp hr with hr | hr
    · exact ⟨Nat.le_trans hnext.rest_le (hp.places r hr).1, (hp.places r hr).2⟩
    · exact ⟨(hnext.places r hr).1, Nat.le_trans (hnext.places r hr).2 hp.rest_le⟩
  ends := by
    rcases hp.ends with hsettled | ⟨n, hpending⟩
    · rcases hnext.ends with hsettled' | ⟨n, hpending⟩
      · exact .inl ⟨List.forall_mem_append.mpr ⟨hsettled.closed, hsettled'.closed⟩,
          List.forall_mem_append.mpr ⟨hsettled.quiet, hsettled'.quiet⟩⟩
      · -- there is something in the node, so what was read before has not ended
        have hrest : p.rest ≠ [] := by
          intro hnil
          have hinnermost := hpending.innermost
          rw [hnil] at haccounts hinnermost
          rw [haccounts.trees_eq_nil] at hinnermost
          exact hinnermost
        have hnone : p.reports.find? (·.ahead = 0) = none := by
          refine List.find?_eq_none.mpr fun r hr hzero ↦ ?_
          have hle := (hp.places r hr).1
          have hpos := List.length_pos_of_ne_nil hrest
          have hzero : r.ahead = 0 := by simpa using hzero
          omega
        obtain ⟨r, hr, habout⟩ := hpending.first
        refine .inr ⟨n, hpending.rest, hpending.innermost.append hsettled.closed, ?_, r, ?_, habout⟩
        · exact List.forall_mem_append.mpr
            ⟨fun r hr hne ↦ absurd (hsettled.quiet r hr) hne, hpending.late⟩
        · rw [Parsed.andThen, List.find?_append, hnone, Option.none_or, hr]
    · -- the text has ended already, and nothing more is built
      rw [hpending.rest] at haccounts hnext
      have hrest : (next []).rest = [] := (List.append_eq_nil_iff.mp haccounts.leaves).2
      obtain ⟨r, hr, habout⟩ := hpending.first
      refine .inr ⟨n, ?_, ?_, ?_, r, ?_, habout⟩
      · rw [Parsed.andThen, hpending.rest, hrest]
      · rw [Parsed.andThen, hpending.rest, haccounts.trees_eq_nil, List.append_nil]
        exact hpending.innermost
      · rw [Parsed.andThen, hpending.rest]
        exact List.forall_mem_append.mpr
          ⟨hpending.late, fun r hr _ ↦ Nat.le_zero.mp (hnext.places r hr).2⟩
      · rw [Parsed.andThen, List.find?_append, hr, Option.some_or]

/-- A node that stands between no delimiters has nothing to tell by itself. -/
theorem Told.wrap {kind : NodeKind} (hkind : kind.closer? = none) (h : p.Told ls) :
    (p.wrap kind).Told ls where
  rest_le := h.rest_le
  sorted := h.sorted
  places := h.places
  ends := by
    rcases h.ends with hsettled | ⟨n, hpending⟩
    · refine .inl ⟨List.forall_mem_singleton.mpr ?_, hsettled.quiet⟩
      exact Tree.closed_node_iff.mpr
        ⟨Tree.not_unclosed_of_closer?_eq_none hkind, hsettled.closed⟩
    · exact .inr ⟨n, hpending.rest, .inl ⟨.inr hpending.innermost, List.forall_mem_nil _⟩,
        hpending.late, hpending.first⟩

end Parsed

namespace Production

/-- Whatever the production reads, it tells of its problems. -/
def Tells (p : Production) : Prop := ∀ ls, (p ls).Told ls

/-! ## Building blocks -/

theorem nothing_tells : Tells nothing :=
  fun _ ↦ Parsed.told_of_quiet (Nat.le_refl _) (List.forall_mem_nil _)

theorem token_tells : Tells token
  | [] => nothing_tells []
  | l :: _ => Parsed.told_of_quiet (Nat.le_succ _)
      (List.forall_mem_singleton.mpr (Tree.closed_leaf l))

theorem report_tells {problem : Problem} (h : problem.opener? = none) : Tells (report problem) :=
  fun _ ↦ Parsed.told_of_report (Nat.le_refl _) (List.forall_mem_nil _) h

theorem optional_tells (kind : TokenKind) : Tells (optional kind) := by
  intro ls
  rw [optional]
  split
  · exact token_tells ls
  · exact nothing_tells ls

theorem expect_tells (kind : TokenKind) {problem : Problem} (h : problem.opener? = none) :
    Tells (expect kind problem) := by
  intro ls
  rw [expect]
  split
  · exact token_tells ls
  · exact report_tells h ls

theorem seq_tells {ps : List Production} (h : ∀ p ∈ ps, Steady p ∧ Tells p) : Tells (seq ps) := by
  induction ps with
  | nil => exact nothing_tells
  | cons p ps ih =>
    rw [List.forall_mem_cons] at h
    intro ls
    exact (h.1.2 ls).andThen (seq_steady (fun q hq ↦ (h.2 q hq).1) _) (ih h.2 _)

/-- Of a sequence, the parts behind the first one have to be steady. -/
theorem seq_cons_tells {p : Production} {ps : List Production} (hp : Tells p)
    (hps : ∀ q ∈ ps, Steady q ∧ Tells q) : Tells (seq (p :: ps)) :=
  fun ls ↦ (hp ls).andThen (seq_steady (fun q hq ↦ (hps q hq).1) _) (seq_tells hps _)

theorem node_tells {kind : NodeKind} {p : Production} (hkind : kind.closer? = none)
    (hp : Tells p) : Tells (node kind p) :=
  fun ls ↦ (hp ls).wrap hkind

/-- An error node with tokens in it is closed. -/
theorem closed_error (ls : List Lexeme) :
    ∀ t ∈ [Tree.node .error (ls.map .leaf)], t.Closed Lexeme.kind := by
  refine List.forall_mem_singleton.mpr (Tree.closed_node_iff.mpr
    ⟨Tree.not_unclosed_of_closer?_eq_none rfl, fun c hc ↦ ?_⟩)
  obtain ⟨l, -, rfl⟩ := List.mem_map.mp hc
  exact Tree.closed_leaf l

theorem stray_tells {problem : Problem} (h : problem.opener? = none) : Tells (stray problem)
  | [] => Parsed.told_of_report (Nat.le_refl 0) (closed_error []) h
  | l :: _ => Parsed.told_of_report (Nat.le_succ _) (closed_error [l]) h

theorem many_tells {stop : TokenKind → Bool} {item : TokenKind → Production}
    (hadvances : ∀ kind, Advances (item kind)) (h : ∀ kind, Tells (item kind)) :
    Tells (many stop item) := by
  intro ls
  refine many_induction hadvances (motive := fun ls p ↦ p.Told ls) ?_ ?_ ?_ ls
  · exact nothing_tells []
  · exact fun l ls _ ↦ nothing_tells (l :: ls)
  · exact fun l ls _ ih ↦ (h l.kind (l :: ls)).andThen (many_steady hadvances _) ih

/-! ## Atoms -/

theorem garbage_tells : Tells garbage
  | [] => nothing_tells []
  | l :: ls => by
    rw [garbage]
    split <;> exact stray_tells rfl _

theorem strayToken_tells (kind : TokenKind) : Tells (strayToken kind) := by
  rw [strayToken.eq_def]
  split
  all_goals first
    | exact stray_tells rfl
    | exact garbage_tells

theorem str_tells : Tells str := by
  refine node_tells rfl (seq_cons_tells token_tells (List.forall_mem_cons.mpr
    ⟨⟨optional_steady _, optional_tells _⟩, List.forall_mem_singleton.mpr
      ⟨expect_steady _ _, expect_tells _ rfl⟩⟩))

theorem negatedField_tells : Tells negatedField :=
  node_tells rfl (seq_cons_tells token_tells (List.forall_mem_singleton.mpr
    ⟨expect_steady _ _, expect_tells _ rfl⟩))

theorem bareName_tells : Tells bareName
  | [] => nothing_tells []
  | l :: ls => stray_tells rfl (l :: ls)

theorem argument_tells (kind : TokenKind) : Tells (argument kind) := by
  rw [argument.eq_def]
  split
  all_goals first
    | exact token_tells
    | exact str_tells
    | exact garbage_tells
    | exact stray_tells rfl

theorem arguments_tells : Tells arguments := many_tells argument_advances argument_tells

/-! ## What stands between delimiters -/

section Delimited

variable {kind : NodeKind} {closer : TokenKind} {l : Lexeme} {ls : List Lexeme} {p : Parsed}

/-- The closer is there, so everything inside of the delimiters is closed. -/
theorem told_of_closer (hkind : kind.closer? = some closer) (h : p.Told ls) {m : Lexeme}
    {rest : List Lexeme} (hrest : p.rest = m :: rest) (hm : m.kind = closer) :
    Parsed.Told ⟨[.node kind (.leaf l :: (p.trees ++ [.leaf m]))], p.reports, rest⟩
      (l :: ls) where
  rest_le := by
    have hle := h.rest_le
    rw [hrest, List.length_cons] at hle
    exact Nat.le_trans (Nat.le_of_succ_le hle) (Nat.le_succ _)
  sorted := h.sorted
  places r hr := by
    have hplaces := h.places r hr
    rw [hrest, List.length_cons] at hplaces
    exact ⟨Nat.le_of_succ_le hplaces.1, Nat.le_trans hplaces.2 (Nat.le_succ _)⟩
  ends := by
    rcases h.ends with hsettled | ⟨n, hpending⟩
    · refine .inl ⟨List.forall_mem_singleton.mpr (Tree.closed_node_iff.mpr ⟨?_, ?_⟩),
        hsettled.quiet⟩
      · rintro ⟨hkind', hne⟩
        rw [hkind] at hkind'
        refine hne m ?_ (hm.trans (Option.some_inj.mp hkind'))
        exact List.mem_cons_of_mem _ (List.mem_append_right _ (List.mem_singleton_self _))
      · exact List.forall_mem_cons.mpr ⟨Tree.closed_leaf l, List.forall_mem_append.mpr
          ⟨hsettled.closed, List.forall_mem_singleton.mpr (Tree.closed_leaf m)⟩⟩
    · rw [hpending.rest] at hrest
      contradiction

/-- The closer is not there: the node is unclosed, and this is reported at the end. -/
theorem told_of_no_closer (hkind : kind.closer? = some closer) (hopener : l.kind ≠ closer)
    (haccounts : p.Accounts ls) (h : p.Told ls) (hrest : p.rest = [])
    (hinner : ∀ m, Tree.leaf m ∈ p.trees → m.kind ≠ closer) :
    Parsed.Told ⟨[.node kind (.leaf l :: p.trees)],
      p.reports ++ [⟨0, kind.unclosed (l :: ls).length⟩], []⟩ (l :: ls) where
  rest_le := Nat.zero_le _
  sorted := by
    refine List.pairwise_append.mpr ⟨h.sorted, List.pairwise_singleton _ _, fun r _ s hs ↦ ?_⟩
    rw [List.mem_singleton.mp hs]
    exact Nat.zero_le _
  places := by
    refine List.forall_mem_append.mpr ⟨fun r hr ↦ ⟨Nat.zero_le _, ?_⟩, ?_⟩
    · exact Nat.le_trans (h.places r hr).2 (Nat.le_succ _)
    · exact List.forall_mem_singleton.mpr ⟨Nat.le_refl 0, Nat.zero_le _⟩
  ends := by
    right
    have hlast : [(⟨0, kind.unclosed (l :: ls).length⟩ : Report)].find? (·.ahead = 0) =
      some ⟨0, kind.unclosed (l :: ls).length⟩ := rfl
    rcases h.ends with hsettled | ⟨n, hpending⟩
    · -- nothing inside is unclosed, and whatever is reported at the end is about no opener
      have hleaves : Tree.leaves (.node kind (.leaf l :: p.trees)) = l :: ls := by
        rw [← haccounts.leaves, hrest, List.append_nil]
        rfl
      refine ⟨_, rfl, .inl ⟨.inl ⟨rfl, .node hkind ?_, ?_⟩, List.forall_mem_nil _⟩, ?_, ?_⟩
      · intro m hm
        rcases List.mem_cons.mp hm with heq | hm
        · rwa [Tree.leaf.inj heq]
        · exact hinner m hm
      · exact List.forall_mem_cons.mpr ⟨Tree.closed_leaf l, hsettled.closed⟩
      · exact List.forall_mem_append.mpr ⟨fun r hr hne ↦ absurd (hsettled.quiet r hr) hne,
          List.forall_mem_singleton.mpr fun _ ↦ rfl⟩
      · rw [List.find?_append, hlast]
        cases hfind : p.reports.find? (·.ahead = 0) with
        | none => exact ⟨_, rfl, .inr ⟨kind, rfl, by rw [hleaves]⟩⟩
        | some r => exact ⟨r, rfl, .inl (hsettled.quiet r (List.mem_of_find?_eq_some hfind))⟩
    · obtain ⟨r, hr, habout⟩ := hpending.first
      refine ⟨n, rfl, .inl ⟨.inr (.inr ⟨Tree.closed_leaf l, hpending.innermost⟩),
        List.forall_mem_nil _⟩, ?_, r, ?_, habout⟩
      · exact List.forall_mem_append.mpr ⟨hpending.late, List.forall_mem_singleton.mpr fun _ ↦ rfl⟩
      · rw [List.find?_append, hr, Option.some_or]

/-- **Step**: what stands between delimiters is closed, or the text ends inside of it.  Then it is
the innermost unclosed node, if there is none inside of it. -/
theorem delimited_told {body : Production} (hkind : kind.closer? = some closer)
    (hopener : l.kind ≠ closer) (haccounts : (body ls).Accounts ls) (hbody : (body ls).Told ls)
    (hstop : ∀ m ∈ (body ls).rest.head?, m.kind = closer)
    (hinner : ∀ m, Tree.leaf m ∈ (body ls).trees → m.kind ≠ closer) :
    (node kind (seq [token, body, close closer kind.unclosed (l :: ls)]) (l :: ls)).Told
      (l :: ls) := by
  have hnode : node kind (seq [token, body, close closer kind.unclosed (l :: ls)]) (l :: ls) =
      (((token (l :: ls)).andThen body).andThen (close closer kind.unclosed (l :: ls))).wrap
        kind := by
    simp [node, seq_cons, Parsed.andThen]
  rw [hnode]
  cases hrest : (body ls).rest with
  | nil =>
    simpa [Parsed.wrap, Parsed.andThen, close, hrest, report] using
      told_of_no_closer hkind hopener haccounts hbody hrest hinner
  | cons m rest =>
    have hm : m.kind = closer := hstop m (by rw [hrest]; rfl)
    simpa [Parsed.wrap, Parsed.andThen, close, hrest, hm] using
      told_of_closer (l := l) hkind hbody hrest hm

end Delimited

section Nested

variable {pattern : Production}

theorem item_tells (h : Tells pattern) (kind : TokenKind) :
    Tells (if kind.startsPattern then pattern else strayToken kind) := by
  split
  · exact h
  · exact strayToken_tells kind

theorem patterns_tells (hp : Advances pattern) (h : Tells pattern) (stop : TokenKind → Bool) :
    Tells (patterns pattern stop) :=
  many_tells (item_advances hp) (item_tells h)

theorem subtype_tells : Tells subtype := by
  intro ls
  rw [subtype]
  split
  · exact seq_cons_tells token_tells (List.forall_mem_singleton.mpr
      ⟨expect_steady _ _, expect_tells _ rfl⟩) ls
  · exact nothing_tells ls

theorem field_tells (hp : Advances pattern) (h : Tells pattern) : Tells (field pattern) := by
  refine node_tells rfl (seq_cons_tells token_tells (List.forall_mem_cons.mpr
    ⟨⟨token_steady, token_tells⟩, List.forall_mem_singleton.mpr
      ⟨fieldValue_steady hp, fun ls ↦ ?_⟩⟩))
  dsimp only
  split
  · exact h ls
  · exact report_tells rfl ls

theorem parenBody_tells (hp : Advances pattern) (h : Tells pattern) (ls : List Lexeme) :
    Tells (parenBody pattern ls).2 := by
  have hpatterns := patterns_tells hp h (· = .parenClose)
  have hsteady := patterns_steady hp (· = .parenClose)
  rw [parenBody]
  split
  · exact nothing_tells
  · exact report_tells rfl
  · exact seq_tells (by simp [token_steady, token_tells, subtype_steady, subtype_tells, hpatterns,
      hsteady])
  · exact seq_tells (by simp [token_steady, token_tells, subtype_steady, subtype_tells, hpatterns,
      hsteady])
  · exact seq_tells (by simp [token_steady, token_tells, arguments_steady, arguments_tells])
  · split
    · exact hpatterns
    · exact seq_cons_tells (report_tells rfl) (by simp [hpatterns, hsteady])

/-- What stands between parentheses is read up to a closing one. -/
theorem rest_parenBody (hp : Advances pattern) (ls : List Lexeme) :
    ∀ m ∈ ((parenBody pattern ls).2 ls).rest.head?, m.kind = .parenClose := by
  have hpatterns (ls : List Lexeme) (m : Lexeme)
      (hm : m ∈ (patterns pattern (· = .parenClose) ls).rest.head?) : m.kind = .parenClose :=
    of_decide_eq_true (rest_many (item_advances hp) ls m hm)
  have harguments (ls : List Lexeme) (m : Lexeme) (hm : m ∈ (arguments ls).rest.head?) :
      m.kind = .parenClose :=
    of_decide_eq_true (rest_many argument_advances ls m hm)
  intro m
  cases ls with
  | nil => simp [parenBody, nothing]
  | cons l ls =>
    rw [parenBody, kindAhead_cons]
    split
    · contradiction
    · rename_i hl
      rintro hm
      obtain rfl := Option.some_inj.mp hm
      exact Option.some_inj.mp hl
    · exact hpatterns _ m
    · exact hpatterns _ m
    · exact harguments _ m
    · split <;> exact hpatterns _ m

theorem eachLetter_bodyOf (kind : NodeKind) :
    EachLetter (· ≠ ChildKind.token .parenClose) (bodyOf kind) := by
  have one {k : TokenKind} (hk : k ≠ .parenClose) :
      EachLetter (· ≠ ChildKind.token .parenClose) (Form.token k) :=
    Form.eachLetter_token (by simpa using hk)
  have optional {k : TokenKind} (hk : k ≠ .parenClose) :
      EachLetter (· ≠ ChildKind.token .parenClose) (1 + Form.token k) := eachLetter_one.add (one hk)
  have any : EachLetter (· ≠ ChildKind.token .parenClose) Form.anyNode :=
    Form.eachLetter_anyNode fun _ _ ↦ ChildKind.noConfusion
  have node (k : NodeKind) : EachLetter (· ≠ ChildKind.token .parenClose) (Form.node k) :=
    Form.eachLetter_node ChildKind.noConfusion
  have argument : EachLetter (· ≠ ChildKind.token .parenClose) Form.argument :=
    ((((one (by decide)).add (one (by decide))).add (one (by decide))).add (node .str)).add
      (node .error)
  have head : EachLetter (· ≠ ChildKind.token .parenClose)
      ((Form.token .ident + Form.token .underscore) *
        (1 + Form.token .slash * (1 + Form.token .ident))) :=
    ((one (by decide)).add (one (by decide))).mul
      (eachLetter_one.add ((one (by decide)).mul (optional (by decide))))
  cases kind with
  | tree => exact (eachLetter_one.add head).mul any.kstar
  | predicate => exact (one (by decide)).mul argument.kstar
  | _ => exact any.mul any.kstar

/-- Between parentheses there is no closing one. -/
theorem ne_parenClose_of_mem_parenBody (hp : Advances pattern) (hP : BuildsNode pattern)
    (ls : List Lexeme) :
    ∀ m, Tree.leaf m ∈ ((parenBody pattern ls).2 ls).trees → m.kind ≠ .parenClose := by
  intro m hm heq
  have hword := (parenBody_builds hp hP ls).word
  exact eachLetter_bodyOf _ _ hword (.token m.kind) (List.mem_map_of_mem hm) (by rw [heq])

/-- What is put between parentheses is closed by one, and is reported as a tree. -/
theorem closer?_parenBody (pattern : Production) (ls : List Lexeme) :
    (parenBody pattern ls).1.closer? = some .parenClose ∧
      (parenBody pattern ls).1.unclosed = Problem.unclosedTree := by
  rw [parenBody]
  split
  all_goals first
    | exact ⟨rfl, rfl⟩
    | split <;> exact ⟨rfl, rfl⟩

theorem paren_told (hp : Advances pattern) (hP : BuildsNode pattern) (h : Tells pattern)
    {l : Lexeme} (hl : l.kind = .parenOpen) (ls : List Lexeme) :
    (paren pattern (l :: ls)).Told (l :: ls) := by
  obtain ⟨hcloser, hunclosed⟩ := closer?_parenBody pattern ls
  have htold := delimited_told (l := l) hcloser (by rw [hl]; decide) (parenBody_steady hp ls ls)
    (parenBody_tells hp h ls ls) (rest_parenBody hp ls) (ne_parenClose_of_mem_parenBody hp hP ls)
  rwa [hunclosed] at htold

theorem alternation_told (hp : Advances pattern) (hP : BuildsNode pattern) (h : Tells pattern)
    {l : Lexeme} (hl : l.kind = .bracketOpen) (ls : List Lexeme) :
    (alternation pattern (l :: ls)).Told (l :: ls) := by
  have hcloser : NodeKind.alternation.closer? = some .bracketClose := rfl
  refine delimited_told hcloser (by rw [hl]; decide) (patterns_steady hp _ ls)
    (patterns_tells hp h _ ls) ?_ ?_
  · exact fun m hm ↦ of_decide_eq_true (rest_many (item_advances hp) ls m hm)
  · intro m hm heq
    have hword := (patterns_builds hp hP (· = .bracketClose) ls).word
    have hnode :=
      (Form.eachLetter_anyNode (p := (· ≠ ChildKind.token .bracketClose)) (by simp)).kstar
    exact hnode _ hword (.token m.kind) (List.mem_map_of_mem hm) (by rw [heq])

theorem atom_tells (hp : Advances pattern) (hP : BuildsNode pattern) (h : Tells pattern) :
    Tells (atom pattern)
  | [] => stray_tells rfl []
  | l :: ls => by
    rw [atom, kindAhead_cons]
    cases hl : l.kind with
    | parenOpen => exact paren_told hp hP h hl ls
    | bracketOpen => exact alternation_told hp hP h hl ls
    | quote => exact str_tells _
    | underscore => exact node_tells rfl token_tells _
    | dot => exact node_tells rfl token_tells _
    | bang => exact negatedField_tells _
    | ident =>
      dsimp only
      split
      · exact field_tells hp h _
      · exact bareName_tells _
    | _ => exact stray_tells rfl _

end Nested

/-! ## Patterns -/

theorem quantified_told {p : Parsed} {ls : List Lexeme} (h : p.Told ls) :
    (quantified p).Told ls := by
  rw [quantified]
  split
  · exact (h.andThen (token_steady _) (token_tells _)).wrap rfl
  · exact h

theorem captureNames_tells : Tells captureNames := by
  refine fun ls ↦ Parsed.told_of_quiet (List.dropWhile_suffix _).length_le fun t ht ↦ ?_
  obtain ⟨l, -, rfl⟩ := List.mem_map.mp ht
  exact Tree.closed_leaf l

theorem captured_told {p : Parsed} {ls : List Lexeme} (h : p.Told ls) : (captured p).Told ls := by
  by_cases hahead : kindAhead p.rest = some .captureName
  · rw [captured_of_ahead hahead]
    exact (h.andThen (captureNames_steady _) (captureNames_tells _)).wrap rfl
  · rwa [captured, if_neg hahead]

theorem swallow_tells : Tells swallow :=
  fun ls ↦ Parsed.told_of_report (Nat.zero_le _) (closed_error ls) rfl

/-- **Patterns tell of their problems**, however deep they may nest. -/
theorem pattern_tells (levels : Nat) : Tells (pattern levels) := by
  induction levels with
  | zero => exact swallow_tells
  | succ levels ih =>
    exact fun ls ↦ captured_told (quantified_told
      (atom_tells (pattern_advances levels) (pattern_builds levels) ih ls))

theorem root_tells : Tells root :=
  patterns_tells (pattern_advances maxDepth) (pattern_tells maxDepth) _

end Production

/-! ## Which reports are kept -/

/-- At a place that was not the last one, the first report is kept. -/
theorem find?_onePerPlaceAfter {last : Option Nat} {k : Nat} (h : last ≠ some k)
    (rs : List Report) :
    (onePerPlaceAfter last rs).find? (·.ahead = k) = rs.find? (·.ahead = k) := by
  induction rs generalizing last with
  | nil => rfl
  | cons r rs ih =>
    rw [onePerPlaceAfter]
    split
    · rename_i hlast
      have hne : r.ahead ≠ k := by
        rintro rfl
        exact h hlast
      rw [ih h, List.find?_cons_of_neg (by simpa using hne)]
    · by_cases hk : r.ahead = k
      · rw [List.find?_cons_of_pos (by simpa using hk), List.find?_cons_of_pos (by simpa using hk)]
      · rw [List.find?_cons_of_neg (by simpa using hk), List.find?_cons_of_neg (by simpa using hk),
          ih (by simpa using hk)]

/-- The first report at a place is kept. -/
theorem find?_onePerPlace (rs : List Report) (k : Nat) :
    (onePerPlace rs).find? (·.ahead = k) = rs.find? (·.ahead = k) :=
  find?_onePerPlaceAfter (Option.some_ne_none k).symm rs

theorem onePerPlaceAfter_sublist (last : Option Nat) (rs : List Report) :
    (onePerPlaceAfter last rs).Sublist rs := by
  induction rs generalizing last with
  | nil => exact .slnil
  | cons r rs ih =>
    rw [onePerPlaceAfter]
    split
    · exact (ih last).cons r
    · exact (ih _).cons_cons r

theorem pairwise_onePerPlaceAfter {last : Option Nat} {rs : List Report}
    (hsorted : rs.Pairwise fun r s ↦ s.ahead ≤ r.ahead)
    (hlast : ∀ k ∈ last, ∀ r ∈ rs, r.ahead ≤ k) :
    (onePerPlaceAfter last rs).Pairwise (fun r s ↦ s.ahead < r.ahead) ∧
      ∀ k ∈ last, ∀ r ∈ onePerPlaceAfter last rs, r.ahead < k := by
  induction rs generalizing last with
  | nil => exact ⟨.nil, fun _ _ ↦ List.forall_mem_nil _⟩
  | cons r rs ih =>
    rw [List.pairwise_cons] at hsorted
    rw [onePerPlaceAfter]
    split
    · exact ih hsorted.2 fun k hk s hs ↦ hlast k hk s (List.mem_cons_of_mem r hs)
    · rename_i hne
      have hlast' : ∀ k ∈ some r.ahead, ∀ s ∈ rs, s.ahead ≤ k := by simpa using hsorted.1
      obtain ⟨hpairwise, hbehind⟩ := ih hsorted.2 hlast'
      have hbehind := hbehind r.ahead rfl
      refine ⟨List.pairwise_cons.mpr ⟨hbehind, hpairwise⟩, fun k hk ↦ ?_⟩
      have hrk : r.ahead < k := by
        refine Nat.lt_of_le_of_ne (hlast k hk r List.mem_cons_self) ?_
        rintro rfl
        exact hne hk
      exact List.forall_mem_cons.mpr ⟨hrk, fun s hs ↦ Nat.lt_trans (hbehind s hs) hrk⟩

/-- **One report for each place**: of reports in the order of their places, those at different
places are kept. -/
theorem pairwise_onePerPlace {rs : List Report}
    (h : rs.Pairwise fun r s ↦ s.ahead ≤ r.ahead) :
    (onePerPlace rs).Pairwise fun r s ↦ s.ahead < r.ahead :=
  (pairwise_onePerPlaceAfter h (by simp)).1

end Concord.Query
