import Concord.Proofs.Query.Within
import Concord.Query.Presence

/-!
# Which predicates become clauses of a pattern

A predicate may stand wherever an atom may, but a pattern lists only those that stand directly in
a tree or in a group.  A predicate that is a branch of an alternation or the value of a field, or
that has a quantifier or a capture behind it, is in the syntax tree and in no list of predicates.

* `Tree.held t` are the predicate nodes inside of `t`, each with the kind of its parent.
* `Tree.Sound.predicates_perm` — the predicates of an expression are the held ones that have a tree
  or a group as their parent.
* `Document.nodup_span_held` — no two held predicates stand at one place, so that a place tells
  which predicate a clause is of.
* `Document.clauses_of_held` puts these together, and `Document.clause_lost_in_alternation` is a
  text where a predicate is lost.
-/

set_option autoImplicit false

namespace Concord.Query

namespace Tree

/-! ## Predicates inside of a tree -/

mutual

/-- The predicate nodes inside of a tree, each behind the kind of the node whose child it is. -/
def held {α : Type} : Tree α → List (NodeKind × Tree α)
  | leaf _ => []
  | node kind children => heldAmong kind children

/-- The predicate nodes among the children of a node of a kind, and inside of those. -/
def heldAmong {α : Type} (kind : NodeKind) : List (Tree α) → List (NodeKind × Tree α)
  | [] => []
  | t :: ts =>
    ((if t.kind? = some .predicate then [(kind, t)] else []) ++ held t) ++ heldAmong kind ts

end

theorem mem_heldAmong {α : Type} {kind : NodeKind} {ts : List (Tree α)} {h : NodeKind × Tree α} :
    h ∈ heldAmong kind ts ↔
      ∃ t ∈ ts, h = (kind, t) ∧ t.kind? = some .predicate ∨ h ∈ t.held := by
  induction ts with
  | nil => simp [heldAmong]
  | cons t ts ih =>
    rw [heldAmong, List.mem_append, List.mem_append, ih, List.exists_mem_cons_iff]
    refine or_congr_left (or_congr_left ?_)
    split <;> simp_all

/-- What is held is a predicate. -/
theorem Sound.of_mem_held {t : Tree Token} (h : t.Sound) :
    ∀ p ∈ t.held, p.2.Sound ∧ p.2.kind? = some .predicate := by
  refine Sound.induct (motive := fun t ↦ ∀ p ∈ t.held, p.2.Sound ∧ p.2.kind? = some .predicate)
    ?_ ?_ t h
  · simp [held]
  · intro kind children h ih p hp
    obtain ⟨c, hc, ⟨rfl, hkind⟩ | hp⟩ := mem_heldAmong.mp hp
    · exact ⟨h.inner c hc, hkind⟩
    · exact ih c hc p hp

/-- Flat nodes hold no predicate. -/
theorem Sound.held_of_isFlat {kind : NodeKind} {children : List (Tree Token)}
    (h : (node kind children).Sound) (hkind : Form.IsFlat kind) :
    (node kind children).held = [] := by
  refine List.eq_nil_iff_forall_not_mem.mpr fun p hp ↦ ?_
  obtain ⟨c, hc, hp⟩ := mem_heldAmong.mp hp
  obtain ⟨t, rfl⟩ := h.exists_leaf_of_isFlat hkind c hc
  simp [kind?, held] at hp

/-- Predicates hold no predicate. -/
theorem Sound.held_predicate {children : List (Tree Token)}
    (h : (node .predicate children).Sound) : (node .predicate children).held = [] := by
  refine List.eq_nil_iff_forall_not_mem.mpr fun p hp ↦ ?_
  obtain ⟨c, hc, hp⟩ := mem_heldAmong.mp hp
  cases c with
  | leaf t => simp [kind?, held] at hp
  | node kind inner =>
    have hflat := h.isFlat_of_predicate hc
    rw [(h.inner _ hc).held_of_isFlat hflat] at hp
    obtain ⟨-, hkind⟩ | hp := hp
    · obtain rfl := Option.some_inj.mp hkind
      simp [Form.IsFlat] at hflat
    · contradiction

/-! ## First leaves -/

/-- The first leaves of held predicates stand one behind the other. -/
theorem Sound.first_held_sublist {t : Tree Token} (h : t.Sound) :
    (t.held.filterMap (·.2.first?)).Sublist t.leaves := by
  refine Sound.induct (motive := fun t ↦ (t.held.filterMap (·.2.first?)).Sublist t.leaves) ?_ ?_ t h
  · simp [held]
  · intro kind children h ih
    rw [held, leaves]
    have hinner := h.inner
    clear h
    induction children with
    | nil => simp [heldAmong]
    | cons t ts ihts =>
      rw [List.forall_mem_cons] at ih hinner
      rw [heldAmong, leavesAll, List.filterMap_append]
      refine List.Sublist.append ?_ (ihts ih.2 hinner.2)
      split
      · -- a predicate begins with a leaf of its own, and there is nothing else to find
        rename_i hkind
        have hheld : t.held = [] := by
          cases t with
          | leaf t => rfl
          | node kind children =>
            obtain rfl := Option.some_inj.mp hkind
            exact hinner.1.held_predicate
        rw [hheld, List.append_nil, List.filterMap_cons]
        cases hfirst : t.first? with
        | none => simp
        | some a =>
          rw [first?_eq_head?, List.head?_eq_some_iff] at hfirst
          obtain ⟨rest, hrest⟩ := hfirst
          simp [hrest]
      · exact ih.1

end Tree

/-! ## Predicates of expressions -/

namespace Tree

/-- The predicates of the expression that a node is. -/
def predicates (t : Tree Token) : List Predicate :=
  ((Expr.ofTree? t).map Expr.predicates).getD []

/-- What a pattern lists of a held predicate: trees and groups list theirs, and nothing else
does. -/
def listed (p : NodeKind × Tree Token) : Option Predicate :=
  if p.1 = .tree ∨ p.1 = .group then Predicate.ofTree? p.2 else none

theorem predicatesAll_eq_flatMap (es : List Expr) :
    Expr.predicatesAll es = es.flatMap Expr.predicates := by
  induction es with
  | nil => rfl
  | cons e es ih => rw [Expr.predicatesAll, ih, List.flatMap_cons]

theorem predicatesAll_ofTrees (ts : List (Tree Token)) :
    Expr.predicatesAll (Expr.ofTrees ts) = ts.flatMap predicates := by
  rw [predicatesAll_eq_flatMap]
  exact flatMap_ofTrees Expr.predicates ts

theorem listed_of_kind_ne {kind : NodeKind} {t : Tree Token} (h : t.kind? ≠ some .predicate) :
    listed (kind, t) = none := by
  rw [listed]
  split
  · cases t with
    | leaf t => rfl
    | node kind children =>
      cases kind with
      | predicate => exact absurd rfl h
      | _ => rfl
  · rfl

/-- The predicates of the children, and those that the node lists itself. -/
theorem predicates_heldAmong_perm (kind : NodeKind) {ts : List (Tree Token)}
    (h : ∀ t ∈ ts, t.predicates.Perm (t.held.filterMap listed)) :
    (ts.flatMap predicates ++ ts.filterMap (listed ⟨kind, ·⟩)).Perm
      ((heldAmong kind ts).filterMap listed) := by
  induction ts with
  | nil => exact .nil
  | cons t ts ih =>
    rw [List.forall_mem_cons] at h
    have hown : (if t.kind? = some .predicate then [(kind, t)] else []).filterMap listed =
        (listed (kind, t)).toList := by
      split
      · cases hlisted : listed (kind, t) <;> simp [hlisted]
      · rename_i hkind
        rw [listed_of_kind_ne hkind]
        rfl
    have hlist : (t :: ts).filterMap (listed ⟨kind, ·⟩) =
        (listed (kind, t)).toList ++ ts.filterMap (listed ⟨kind, ·⟩) := by
      rw [List.filterMap_cons]
      cases listed (kind, t) <;> rfl
    rw [heldAmong, List.filterMap_append, List.filterMap_append, hown, hlist, List.flatMap_cons,
      List.append_assoc, List.append_assoc]
    -- what the node lists of `t` moves in front of the predicates of `t` and of the others
    refine ((List.perm_append_comm_assoc _ _ _).append_left _).trans ?_
    refine (List.perm_append_comm_assoc _ _ _).trans (.append_left _ ?_)
    exact h.1.append (ih h.2)

/-- A field, a quantifier and a capture have the predicates of all expressions among their
children, although they read only the first. -/
theorem Sound.predicates_of_head {kind : NodeKind} {children : List (Tree Token)}
    (h : (node kind children).Sound)
    (hkind : kind = .field ∨ kind = .quantifier ∨ kind = .capture) :
    (node kind children).predicates = children.flatMap predicates := by
  have hhead : (node kind children).predicates =
      ((Expr.ofTrees children).head?.map Expr.predicates).getD [] := by
    obtain rfl | rfl | rfl := hkind
    all_goals
      rw [predicates, Expr.ofTree?]
      cases (Expr.ofTrees children).head? <;> simp [Expr.predicates]
  rw [hhead]
  exact h.listing_head Expr.predicates hkind

/-- **The predicates of an expression** are the held ones that have a tree or a group as their
parent. -/
theorem Sound.predicates_perm {t : Tree Token} (h : t.Sound) :
    t.predicates.Perm (t.held.filterMap listed) := by
  refine Sound.induct (motive := fun t ↦ t.predicates.Perm (t.held.filterMap listed)) ?_ ?_ t h
  · exact fun t ↦ .nil
  · intro kind children h ih
    have hall := predicates_heldAmong_perm kind ih
    rw [← predicatesAll_ofTrees] at hall
    have hlisted (htree : kind ≠ .tree) (hgroup : kind ≠ .group) :
        children.filterMap (listed ⟨kind, ·⟩) = [] := by simp [listed, htree, hgroup]
    have hsingle (hkind : kind = .field ∨ kind = .quantifier ∨ kind = .capture) :
        (node kind children).predicates.Perm ((node kind children).held.filterMap listed) := by
      rw [hlisted (by rintro rfl; simp at hkind) (by rintro rfl; simp at hkind),
        List.append_nil] at hall
      rwa [h.predicates_of_head hkind, ← predicatesAll_ofTrees]
    cases kind with
    | tree => exact hall
    | group => exact hall
    | alternation =>
      rwa [hlisted NodeKind.noConfusion NodeKind.noConfusion, List.append_nil] at hall
    | field => exact hsingle (.inl rfl)
    | quantifier => exact hsingle (.inr (.inl rfl))
    | capture => exact hsingle (.inr (.inr rfl))
    | predicate =>
      rw [h.held_predicate]
      exact .nil
    | root => exact absurd rfl h.kind_ne
    | _ =>
      rw [h.held_of_isFlat (by simp [Form.IsFlat])]
      exact .nil

end Tree

/-! ## Clauses of a text -/

/-- Where no two elements have the same image, an image tells the element. -/
theorem filter_eq_singleton {α β : Type} [DecidableEq β] {f : α → β} {l : List α} {a : α}
    (hnodup : (l.map f).Nodup) (ha : a ∈ l) : l.filter (fun b ↦ decide (f b = f a)) = [a] := by
  induction l with
  | nil => contradiction
  | cons b l ih =>
    rw [List.map_cons, List.nodup_cons] at hnodup
    rcases List.mem_cons.mp ha with rfl | ha
    · rw [List.filter_cons_of_pos (by simp), List.filter_eq_nil_iff.mpr]
      intro c hc hfc
      exact hnodup.1 (List.mem_map.mpr ⟨c, hc, of_decide_eq_true hfc⟩)
    · have hne : f b ≠ f a := fun heq ↦ hnodup.1 (heq ▸ List.mem_map_of_mem ha)
      rw [List.filter_cons_of_neg (by simpa using hne), ih hnodup.2 ha]

namespace Tree

/-- A tree begins where its first leaf begins. -/
theorem map_start_span {ps : List (NodeKind × Tree Token)}
    (h : ∀ p ∈ ps, ∃ t, p.2.first? = some t) :
    ps.map (·.2.span.start) = (ps.filterMap (·.2.first?)).map (·.span.start) := by
  induction ps with
  | nil => rfl
  | cons p ps ih =>
    rw [List.forall_mem_cons] at h
    obtain ⟨⟨t, ht⟩, hps⟩ := h
    rw [List.map_cons, ih hps, List.filterMap_cons, span]
    simp only [ht, List.map_cons, Option.map_some, Option.getD_some]

theorem span_of_listed {p : NodeKind × Tree Token} {r : Predicate} (h : listed p = some r) :
    r.span = p.2.span := by
  obtain ⟨kind, _ | ⟨inner, children⟩⟩ := p
  · simp [listed, Predicate.ofTree?] at h
  · rw [listed] at h
    split at h
    · cases inner with
      | predicate =>
        rw [Predicate.ofTree?, Option.map_eq_some_iff] at h
        obtain ⟨t, -, rfl⟩ := h
        rfl
      | _ => simp [Predicate.ofTree?] at h
    · contradiction

/-- The predicates at a place are those of the nodes at that place. -/
theorem filter_filterMap_listed (s : Span) (ps : List (NodeKind × Tree Token)) :
    (ps.filterMap listed).filter (·.span = s) =
      (ps.filter (·.2.span = s)).filterMap listed := by
  rw [List.filter_filterMap, List.filterMap_filter]
  refine List.filterMap_congr fun p _ ↦ ?_
  cases h : listed p with
  | none => simp
  | some r => simp [Option.filter, span_of_listed h]

end Tree

namespace Document

variable {source : String} {t : Tree Token}

/-- No two predicates in a pattern stand at one place. -/
theorem nodup_span_held (ht : t ∈ (parse source).tree.children) :
    (t.held.map (·.2.span)).Nodup := by
  have hsound := sound_of_mem_children ht
  have hstarts : ((tokenize source).map (·.span.start)).Nodup := by
    have h := (tiles_tokenize source).nodup_start
    rwa [List.map_map] at h
  have hleaves : t.leaves.Sublist (tokenize source) := by
    rw [← Tree.leaves_weaveRoot (Production.root (significant source)).trees (tokenize source)]
    exact Tree.leaves_sublist_of_mem ht
  have hheld := hstarts.sublist ((hsound.first_held_sublist.trans hleaves).map _)
  rw [← Tree.map_start_span fun p hp ↦ ?_] at hheld
  · refine List.Nodup.of_map Span.start ?_
    rwa [List.map_map]
  · obtain ⟨hp, hkind⟩ := hsound.of_mem_held p hp
    exact hp.exists_first? hkind

/-- **Which predicates are clauses.**  For each predicate inside of a top-level pattern there is
exactly one clause with its place if its parent is a tree or a group, and there is none otherwise;
and every clause of the pattern is there for such a predicate. -/
theorem clauses_of_held {e : Expr} (ht : t ∈ (parse source).tree.children)
    (he : Expr.ofTree? t = some e) :
    Pattern.ofExpr e ∈ (parse source).patterns ∧
      (∀ parent q, (parent, q) ∈ t.held → ∃ p, Predicate.ofTree? q = some p ∧
        (Pattern.ofExpr e).clauses.filter (·.span = q.span) =
          if parent = .tree ∨ parent = .group then [Clause.ofPredicate p] else []) ∧
      ∀ c ∈ (Pattern.ofExpr e).clauses, ∃ parent q p, (parent, q) ∈ t.held ∧
        (parent = .tree ∨ parent = .group) ∧ Predicate.ofTree? q = some p ∧
          c = Clause.ofPredicate p := by
  have hsound := sound_of_mem_children ht
  have hperm : e.predicates.Perm (t.held.filterMap Tree.listed) := by
    have h := hsound.predicates_perm
    rwa [Tree.predicates, he] at h
  refine ⟨?_, fun parent q hq ↦ ?_, fun c hc ↦ ?_⟩
  · refine List.mem_map_of_mem ?_
    show e ∈ Expr.ofTrees (parse source).tree.children
    rw [Expr.ofTrees_eq_filterMap]
    exact List.mem_filterMap.mpr ⟨t, ht, he⟩
  · obtain ⟨hq', hkind⟩ := hsound.of_mem_held _ hq
    obtain ⟨p, hp⟩ := hq'.exists_predicate hkind
    have hplace : (e.predicates.filter (·.span = q.span)).Perm
        ([(parent, q)].filterMap Tree.listed) := by
      rw [← filter_eq_singleton (nodup_span_held ht) hq, ← Tree.filter_filterMap_listed]
      exact hperm.filter _
    have hclauses : (Pattern.ofExpr e).clauses.filter (·.span = q.span) =
        (e.predicates.filter (·.span = q.span)).map Clause.ofPredicate := List.filter_map
    refine ⟨p, hp, ?_⟩
    rw [hclauses]
    split
    · rename_i hparent
      rw [List.filterMap_cons_some (b := p) (by rw [Tree.listed, if_pos hparent, hp])] at hplace
      rw [List.perm_singleton.mp hplace]
      rfl
    · rename_i hparent
      rw [List.filterMap_cons_none (by rw [Tree.listed, if_neg hparent])] at hplace
      rw [List.perm_nil.mp hplace]
      rfl
  · obtain ⟨p, hp, rfl⟩ := List.mem_map.mp hc
    obtain ⟨⟨parent, q⟩, hq, hlisted⟩ := List.mem_filterMap.mp (hperm.subset hp)
    rw [Tree.listed, Option.ite_none_right_eq_some] at hlisted
    exact ⟨parent, q, p, hq, hlisted.1, hlisted.2, rfl⟩

/-- A predicate in a group is a clause. -/
theorem clauses_of_held_group :
    ∃ t e q c, t ∈ (parse "((x) @a (#eq? @a \"b\"))").tree.children ∧
      Expr.ofTree? t = some e ∧ (.group, q) ∈ t.held ∧ q.span = ⟨8, 21⟩ ∧
        (Pattern.ofExpr e).clauses.filter (·.span = q.span) = [c] := by
  have hshape : (parse "((x) @a (#eq? @a \"b\"))").tree.children.map
      (fun t ↦ ((Expr.ofTree? t).isSome, t.held.map fun p ↦ (p.1, p.2.span))) =
        [(true, [(.group, ⟨8, 21⟩)])] := by decide +kernel
  obtain ⟨t, hchildren, ht⟩ := List.map_eq_singleton_iff.mp hshape
  obtain ⟨hexpr, hheld⟩ := Prod.mk.inj ht
  obtain ⟨e, he⟩ := Option.isSome_iff_exists.mp hexpr
  obtain ⟨⟨parent, q⟩, hq, hplace⟩ := List.map_eq_singleton_iff.mp hheld
  obtain ⟨rfl, hspan⟩ := Prod.mk.inj hplace
  have hmem : t ∈ (parse "((x) @a (#eq? @a \"b\"))").tree.children := by
    rw [hchildren]
    exact List.mem_singleton_self t
  have hin : (.group, q) ∈ t.held := by
    rw [hq]
    exact List.mem_singleton_self _
  obtain ⟨p, -, hclauses⟩ := (clauses_of_held hmem he).2.1 _ q hin
  exact ⟨t, e, q, _, hmem, he, hin, hspan, hclauses⟩

/-- **A predicate beside a capture in an alternation is lost.**  The syntax tree has it and the
pattern does not, and so a text passes that the predicate excludes. -/
theorem clause_lost_in_alternation :
    (parse "[(x) @a (#eq? @a \"b\")]").tree.held.map (fun p ↦ (p.1, p.2.span)) =
        [(.alternation, ⟨8, 21⟩)] ∧
      (parse "[(x) @a (#eq? @a \"b\")]").patterns.flatMap Pattern.clauses = [] ∧
      (parse "[(x) @a (#eq? @a \"b\")]").diagnostics = [] ∧
      (parse "[(x) @a (#eq? @a \"b\")]").presentsPredicate "a" "eq?" "b" = false ∧
      (parse "[(x) @a (#eq? @a \"b\")]").captureAccepts "a" "c" = true := by
  decide +kernel

end Document

end Concord.Query
