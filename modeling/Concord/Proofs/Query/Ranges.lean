import Concord.Listing.Captures
import Concord.Proofs.Query.Capturing
import Concord.Proofs.Query.Clauses
import Concord.Proofs.Query.Edges

/-!
# Where patterns, captures and clauses stand

The tokens of a text tile it, a node covers the tokens from its first to its last, and both of
these mean something.  So the patterns of a document stand one behind the other, with everything
that they list inside of them, and the listing of the captures goes down the lines of the text.

* `Tree.Laid t` puts together what is known of a tree inside of the tree of a text.
* `Tree.Laid.inside` — what stands inside of a tree covers a part of the text that it covers.
* `Tree.Laid.pairwise_captures` — the captures of a tree are listed in the order of their starts.
* `CapturePair.ListedAs` ties a row of the listing to the capture node that it is for.
* `Document.ranges_in_order` puts these together, for every text.
-/

set_option autoImplicit false

namespace Concord

/-- The stretch `s` is a part of the stretch `outer`. -/
structure Span.Inside (s outer : Span) : Prop where
  start_le : outer.start ≤ s.start
  lt : s.start < s.stop
  stop_le : s.stop ≤ outer.stop

namespace Query

namespace Tree

/-! ## Trees of a text -/

/-- The tokens of the tree stand one behind the other, from `start` to `stop`. -/
def Tiled (start stop : Nat) (t : Tree Token) : Prop := Tiles start stop (t.leaves.map Token.span)

section Tiled

variable {start stop : Nat} {t n : Tree Token}

/-- A tree covers what its tokens cover. -/
theorem Tiled.span_eq (h : t.Tiled start stop) (hne : t.leaves ≠ []) :
    t.span = ⟨start, stop⟩ ∧ start < stop := by
  obtain ⟨first, rest, hleaves⟩ := List.exists_cons_of_ne_nil hne
  have hlast : t.leaves.getLast? = some (t.leaves.getLast hne) :=
    List.getLast?_eq_some_getLast hne
  have hstop : (t.leaves.getLast hne).span.stop = stop :=
    Tiles.stop_eq h (by rw [List.getLast?_map, hlast, Option.map_some])
  have hfirst : t.leaves.head? = some first := by rw [hleaves, List.head?_cons]
  rw [Tiled, hleaves, List.map_cons] at h
  obtain ⟨hstart, hlt, hrest⟩ := h
  have hle := hrest.le
  refine ⟨?_, by omega⟩
  rw [Tree.span, first?_eq_head?, last?_eq_getLast?, hfirst, hlast, Option.map_some,
    Option.map_some, Option.getD_some, Option.getD_some, hstart, hstop]

/-- What stands inside of a tree is tiled, from no earlier and to no later. -/
theorem Tiled.within (h : t.Tiled start stop) (hn : n.Within t) :
    ∃ start' stop', start ≤ start' ∧ stop' ≤ stop ∧ n.Tiled start' stop' := by
  obtain ⟨before, after, hleaves⟩ := hn.exists_leaves
  rw [Tiled, hleaves, List.map_append, List.map_append] at h
  obtain ⟨stop', h, hafter⟩ := h.append
  obtain ⟨start', hbefore, hn⟩ := h.append
  exact ⟨start', stop', hbefore.le, hafter.le, hn⟩

end Tiled

/-- A tree inside of the tree of a text: its nodes are of their forms, each begins and ends with a
token that means something, and the tokens stand one behind the other. -/
structure Laid (t : Tree Token) : Prop where
  sound : t.Sound
  trim : t.Trim
  tiled : ∃ start stop, t.Tiled start stop

namespace Laid

variable {t n : Tree Token}

theorem within (h : t.Laid) (hn : n.Within t) : n.Laid := by
  obtain ⟨start, stop, htiled⟩ := h.tiled
  obtain ⟨start', stop', -, -, hn'⟩ := htiled.within hn
  exact ⟨h.sound.within hn, h.trim.within hn, start', stop', hn'⟩

/-- **What stands inside of a tree** covers a part of what the tree covers. -/
theorem inside (h : t.Laid) (hn : n.Within t) : n.span.Inside t.span := by
  obtain ⟨start, stop, htiled⟩ := h.tiled
  obtain ⟨start', stop', hstart, hstop, hn'⟩ := htiled.within hn
  obtain ⟨hspan, -⟩ := htiled.span_eq h.trim.leaves_ne_nil
  obtain ⟨hspan', hlt⟩ := hn'.span_eq (h.trim.within hn).leaves_ne_nil
  rw [hspan, hspan']
  exact ⟨hstart, hlt, hstop⟩

end Laid

/-- Trees of a text that stand one behind the other cover stretches that do so. -/
theorem pairwise_span {ts : List (Tree Token)} {start stop : Nat} (hlaid : ∀ t ∈ ts, t.Laid)
    (h : Tiles start stop ((leavesAll ts).map Token.span)) :
    ts.Pairwise fun t u ↦ t.span.stop ≤ u.span.start := by
  induction ts generalizing start with
  | nil => exact .nil
  | cons t ts ih =>
    rw [List.forall_mem_cons] at hlaid
    rw [leavesAll, List.map_append] at h
    obtain ⟨mid, ht, hts⟩ := h.append
    refine List.pairwise_cons.mpr ⟨fun u hu ↦ ?_, ih hlaid.2 hts⟩
    -- `u` stands inside of the trees behind `t`
    have hall : (node .root ts).Tiled mid stop := hts
    obtain ⟨start', stop', hle, -, hu'⟩ := hall.within (.child hu .refl)
    rw [(Tiled.span_eq ht hlaid.1.trim.leaves_ne_nil).1,
      (hu'.span_eq (hlaid.2 u hu).trim.leaves_ne_nil).1]
    exact hle

/-! ## What a pattern lists -/

theorem span_of_ofTree? {t : Tree Token} {e : Expr} (h : Expr.ofTree? t = some e) :
    e.span = t.span := by
  cases t with
  | leaf t => simp [Expr.ofTree?] at h
  | node kind children =>
    cases kind <;> simp only [Expr.ofTree?, Option.some.injEq, reduceCtorEq] at h <;> subst h <;>
      rfl

/-- What a tree holds stands inside of it. -/
theorem Sound.within_of_mem_held {t : Tree Token} (h : t.Sound) :
    ∀ p ∈ t.held, p.2.Within t := by
  refine Sound.induct (motive := fun t ↦ ∀ p ∈ t.held, p.2.Within t) ?_ ?_ t h
  · simp [held]
  · intro kind children _ ih p hp
    obtain ⟨c, hc, ⟨rfl, -⟩ | hp⟩ := mem_heldAmong.mp hp
    · exact .child hc .refl
    · exact .child hc (ih c hc p hp)

namespace Laid

variable {t : Tree Token}

theorem span_of_mem_captures (h : t.Laid) {p : CapturePair} (hp : p ∈ t.listing Expr.captures) :
    p.span.Inside t.span := by
  obtain ⟨children, hwithin, hp⟩ := (h.sound.mem_captures_iff p).mp hp
  rw [(mem_pairs_iff.mp hp).1]
  exact h.inside hwithin

theorem span_of_mem_predicates (h : t.Laid) {p : Predicate} (hp : p ∈ t.predicates) :
    p.span.Inside t.span := by
  obtain ⟨q, hq, hp⟩ := List.mem_filterMap.mp (h.sound.predicates_perm.subset hp)
  rw [span_of_listed hp]
  exact h.inside (h.sound.within_of_mem_held q hq)

/-- The captures of trees that stand one behind the other are in the order of their starts if those
of each tree are. -/
theorem pairwise_flatMap_captures {ts : List (Tree Token)} {start stop : Nat}
    (hlaid : ∀ t ∈ ts, t.Laid) (htiles : Tiles start stop ((leavesAll ts).map Token.span))
    (h : ∀ t ∈ ts, (t.listing Expr.captures).Pairwise fun p q ↦ p.span.start ≤ q.span.start) :
    (ts.flatMap (listing Expr.captures)).Pairwise fun p q ↦ p.span.start ≤ q.span.start := by
  refine List.pairwise_flatMap.mpr ⟨h, ?_⟩
  refine (pairwise_span hlaid htiles).imp_of_mem fun hc hd hle p hp q hq ↦ ?_
  have hp := (hlaid _ hc).span_of_mem_captures hp
  have hq := (hlaid _ hd).span_of_mem_captures hq
  exact Nat.le_trans (Nat.le_of_lt hp.lt)
    (Nat.le_trans hp.stop_le (Nat.le_trans hle hq.start_le))

/-- **The captures of a tree** are listed in the order of their starts. -/
theorem pairwise_captures (h : t.Laid) :
    (t.listing Expr.captures).Pairwise fun p q ↦ p.span.start ≤ q.span.start := by
  refine Sound.induct (motive := fun t ↦ t.Laid →
    (t.listing Expr.captures).Pairwise fun p q ↦ p.span.start ≤ q.span.start) ?_ ?_ t h.sound h
  · intro t _
    exact .nil
  · intro kind children hsound ih h
    have hinner : ∀ c ∈ children, c.Laid := fun c hc ↦ h.within (.child hc .refl)
    obtain ⟨start, stop, htiled⟩ := h.tiled
    rw [hsound.listing_captures]
    refine List.pairwise_append.mpr ⟨?_, ?_, ?_⟩
    · -- the pairs of one capture node stand at one place
      split
      · refine List.pairwise_of_forall_mem_list fun p hp q hq ↦ ?_
        rw [(mem_pairs_iff.mp hp).1, (mem_pairs_iff.mp hq).1]
      · exact .nil
    · exact pairwise_flatMap_captures hinner htiled fun c hc ↦ ih c hc (hinner c hc)
    · intro p hp q hq
      split at hp
      · rename_i hkind
        obtain rfl := hkind
        obtain ⟨c, hc, hq⟩ := List.mem_flatMap.mp hq
        rw [(mem_pairs_iff.mp hp).1]
        exact Nat.le_trans (h.inside (.child hc .refl)).start_le
          ((hinner c hc).span_of_mem_captures hq).start_le
      · contradiction

/-- A capture node begins with what it captures, which is its only child that is a node, and that
begins with a token that means something. -/
theorem exists_first? {children : List (Tree Token)} (h : (node .capture children).Laid) :
    ∃ inner rest t, children = inner :: rest ∧ (∀ c ∈ rest, c.kind? = none) ∧
      inner.first? = some t ∧ t.kind.isTrivia = false ∧
        (node .capture children).span.start = t.span.start := by
  obtain ⟨t, ht, htrivia⟩ := h.trim.exists_first?
  have hlength := Form.length_nodes_le (.inr (.inr rfl)) h.sound.form
  obtain ⟨_, ⟨k, hk, rfl⟩, v, -, hword⟩ := h.sound.form
  cases children with
  | nil => simp [bareAll] at hword
  | cons inner rest =>
    cases inner with
    | leaf a =>
      obtain rfl := Option.some_inj.mp ht
      rw [bareAll, bare, if_neg (by rw [htrivia]; exact Bool.false_ne_true)] at hword
      exact absurd (List.cons.inj hword).1 ChildKind.noConfusion
    | node kind inner =>
      rw [nodes_bareAll, List.filterMap_cons_some (by rfl), List.length_cons] at hlength
      have hrest : rest.filterMap kind? = [] := List.eq_nil_of_length_eq_zero (by omega)
      obtain ⟨t', ht', -⟩ := (h.trim.inner _ List.mem_cons_self).exists_first?
      obtain rfl : t' = t := by
        rw [Tree.first?, firstOf?, ht'] at ht
        exact Option.some_inj.mp ht
      refine ⟨_, rest, t', rfl, List.filterMap_eq_nil_iff.mp hrest, ht', htrivia, ?_⟩
      rw [Tree.span, ht]
      rfl

end Laid

end Tree

/-! ## Rows of the listing -/

/-- The row is for a pair of the text: it says what the pair says, and its line is that of the
first token of what is captured, trivia not counted. -/
structure CapturePair.ListedAs (source : String) (p : CapturePair) (r : CaptureRow) : Prop where
  node_eq : r.node = p.nodeType
  named_eq : r.named = p.named
  capture_eq : r.capture = p.capture
  line_eq : ∃ children inner t before after,
    (Tree.node .capture children).Within (Document.parse source).tree ∧
      (Tree.node .capture children).span = p.span ∧
      (Tree.node .capture children).Captures p.nodeType p.capture ∧
      inner ∈ children ∧ inner.Resolves p.nodeType ∧
      inner.leaves.find? (!·.kind.isTrivia) = some t ∧
      source.toList = before ++ t.text ++ after ∧ utf8Length before = t.span.start ∧
      r.line = before.count '\n' + 1

namespace Document

variable {source : String} {t : Tree Token}

theorem laid_of_mem_children (ht : t ∈ (parse source).tree.children) : t.Laid := by
  have hroot : (Tree.node .root (parse source).tree.children).Tiled 0 source.utf8ByteSize := by
    rw [Tree.Tiled, Tree.leaves, leavesAll_children]
    exact tiles_tokenize source
  obtain ⟨start, stop, -, -, htiled⟩ := hroot.within (.child ht .refl)
  exact ⟨sound_of_mem_children ht, trim_of_mem_children ht, start, stop, htiled⟩

theorem tiles_leavesAll_children (source : String) :
    Tiles 0 source.utf8ByteSize ((Tree.leavesAll (parse source).tree.children).map Token.span) := by
  rw [leavesAll_children]
  exact tiles_tokenize source

theorem patterns_parse (source : String) :
    (parse source).patterns =
      ((parse source).tree.children.filterMap Expr.ofTree?).map Pattern.ofExpr := by
  rw [← Expr.ofTrees_eq_filterMap]
  rfl

/-- What a pattern lists stands inside of it. -/
theorem inside_of_mem_patterns {p : Pattern} (hp : p ∈ (parse source).patterns) :
    p.span.start < p.span.stop ∧ (∀ c ∈ p.captures, c.span.Inside p.span) ∧
      ∀ c ∈ p.clauses, c.span.Inside p.span := by
  rw [patterns_parse, List.mem_map] at hp
  obtain ⟨e, he, rfl⟩ := hp
  obtain ⟨t, ht, he⟩ := List.mem_filterMap.mp he
  have hlaid := laid_of_mem_children ht
  have hspan : (Pattern.ofExpr e).span = t.span := Tree.span_of_ofTree? he
  rw [hspan]
  refine ⟨(hlaid.inside .refl).lt, fun c hc ↦ hlaid.span_of_mem_captures ?_, fun c hc ↦ ?_⟩
  · rwa [Tree.listing, he]
  · obtain ⟨r, hr, rfl⟩ := List.mem_map.mp hc
    exact hlaid.span_of_mem_predicates (p := r) (by rwa [Tree.predicates, he])

/-- The patterns of a text stand one behind the other. -/
theorem pairwise_patterns (source : String) :
    (parse source).patterns.Pairwise fun p q ↦ p.span.stop ≤ q.span.start := by
  rw [patterns_parse, List.pairwise_map]
  have hlaid : ∀ t ∈ (parse source).tree.children, t.Laid := fun t ↦ laid_of_mem_children
  refine (Tree.pairwise_span hlaid (tiles_leavesAll_children source)).filterMap _ ?_
  intro t u hle e he e' he'
  rw [← Tree.span_of_ofTree? he, ← Tree.span_of_ofTree? he'] at hle
  exact hle

theorem pairwise_captures (source : String) :
    (parse source).captures.Pairwise fun p q ↦ p.span.start ≤ q.span.start := by
  rw [captures_parse]
  exact Tree.Laid.pairwise_flatMap_captures (fun t ↦ laid_of_mem_children)
    (tiles_leavesAll_children source) fun t ht ↦ (laid_of_mem_children ht).pairwise_captures

/-- The start of a pair is where what is captured has its first token. -/
theorem listedAs_of_mem_captures {p : CapturePair} (hp : p ∈ (parse source).captures) :
    p.ListedAs source ⟨lineOf source p.span.start, p.nodeType, p.named, p.capture⟩ := by
  obtain ⟨children, hwithin, hp⟩ := (mem_captures_iff source p).mp hp
  have hcaptures := captures_of_mem_capturePairs hwithin hp
  obtain ⟨pattern, hpattern, hinside⟩ := exists_of_within NodeKind.noConfusion hwithin
  have hlaid := (laid_of_mem_children hpattern).within hinside
  have hspan := (Tree.mem_pairs_iff.mp hp).1
  obtain ⟨inner, rest, t, rfl, hrest, hfirst, htrivia, hstart⟩ := hlaid.exists_first?
  have hresolves : inner.Resolves p.nodeType := by
    cases hcaptures with
    | @intro _ mark c _ _ _ _ _ hc h =>
      rcases List.mem_cons.mp hc with rfl | hc
      · exact h
      · -- behind what is captured there are tokens only, and those resolve to nothing
        cases c with
        | leaf a => exact absurd h Tree.not_resolves_leaf
        | node kind inner => exact absurd (hrest _ hc) (Option.some_ne_none kind)
  rw [Tree.first?_eq_head?, List.head?_eq_some_iff] at hfirst
  obtain ⟨others, hleaves⟩ := hfirst
  have ht : t ∈ tokenize source := by
    rw [← Document.leavesAll_children source]
    refine (hwithin.mem_leaves (a := t) ?_)
    rw [Tree.leaves, Tree.leavesAll, hleaves]
    exact List.mem_cons_self
  obtain ⟨before, after, htext, hbefore, -⟩ := (covers_of_mem_tokenize ht).text
  refine ⟨rfl, rfl, rfl, _, inner, t, before, after, hwithin, hspan.symm, hcaptures,
    List.mem_cons_self, hresolves, ?_, htext, hbefore, ?_⟩
  · rw [hleaves, List.find?_cons_of_pos (by rw [htrivia]; rfl)]
  · rw [hspan, hstart, ← hbefore, lineOf, htext, List.append_assoc, newlinesBefore_append]

/-- **Ranges and the listing of the captures follow the document.**  Whatever the text is, no
pattern is empty, the patterns stand one behind the other, and a pattern has all of its captures
and clauses inside of it; the captures are listed in the order of their starts; so the lines of
the listing never go down, whichever node type it is for, and each of its rows has the line of
the first token of what is captured that means something. -/
theorem ranges_in_order (source : String) (node : Option String) :
    (∀ p ∈ (parse source).patterns, p.span.start < p.span.stop ∧
        (∀ c ∈ p.captures, c.span.Inside p.span) ∧ ∀ c ∈ p.clauses, c.span.Inside p.span) ∧
      (parse source).patterns.Pairwise (fun p q ↦ p.span.stop ≤ q.span.start) ∧
      (parse source).captures.Pairwise (fun p q ↦ p.span.start ≤ q.span.start) ∧
      (CaptureRow.ofDocument (parse source) node).Pairwise (fun r r' ↦ r.line ≤ r'.line) ∧
      List.Forall₂ (CapturePair.ListedAs source)
        ((parse source).captures.filter fun p ↦ node.all (p.nodeType == ·))
        (CaptureRow.ofDocument (parse source) node) := by
  refine ⟨fun p ↦ inside_of_mem_patterns, pairwise_patterns source, pairwise_captures source,
    ?_, ?_⟩
  · rw [CaptureRow.ofDocument, List.pairwise_map]
    exact ((pairwise_captures source).filter _).imp fun hle ↦ lineOf_le source hle
  · rw [CaptureRow.ofDocument, List.forall₂_map_right_iff, List.forall₂_same]
    exact fun p hp ↦ listedAs_of_mem_captures (List.mem_of_mem_filter hp)

end Document

end Query

end Concord
