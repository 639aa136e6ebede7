import Concord.Proofs.Query.Within

/-!
# Nodes begin and end with tokens that mean something

Blanks and comments stand in the tree of a text as well, but never at the edge of a node: each
stands in the innermost node that goes on behind it.

* `Tree.Trim t` says that every node of `t` begins and ends with a significant token.
* `Tree.trim_weaveAll` — weaving puts the trivia in front of a node outside of it, and takes no
  trivia behind its last leaf.
* `Document.trim_of_mem_children` says it of the patterns of a text.
-/

set_option autoImplicit false

namespace Concord.Query

namespace Tree

/-- Every node of the tree begins and ends with a significant token. -/
inductive Trim : Tree Token → Prop
  | leaf (t : Token) : Trim (.leaf t)
  | node {kind : NodeKind} {children : List (Tree Token)}
    (hfirst : ∃ t, firstOf? children = some t ∧ t.kind.isTrivia = false)
    (hlast : ∃ t, lastOf? children = some t ∧ t.kind.isTrivia = false)
    (h : ∀ c ∈ children, Trim c) : Trim (.node kind children)

namespace Trim

variable {t : Tree Token}

theorem inner {kind : NodeKind} {children : List (Tree Token)}
    (h : (Tree.node kind children).Trim) : ∀ c ∈ children, c.Trim := by
  obtain _ | ⟨-, -, h⟩ := h
  exact h

theorem within {n : Tree Token} (h : t.Trim) (hn : n.Within t) : n.Trim := by
  induction hn with
  | refl => exact h
  | child hc _ ih => exact ih (h.inner _ hc)

theorem exists_first? {kind : NodeKind} {children : List (Tree Token)}
    (h : (Tree.node kind children).Trim) :
    ∃ t, (Tree.node kind children).first? = some t ∧ t.kind.isTrivia = false := by
  obtain _ | ⟨hfirst, -, -⟩ := h
  exact hfirst

theorem leaves_ne_nil (h : t.Trim) : t.leaves ≠ [] := by
  cases t with
  | leaf t => exact List.cons_ne_nil t []
  | node kind children =>
    obtain ⟨t, ht, -⟩ := h.exists_first?
    intro hnil
    rw [first?_eq_head?, hnil] at ht
    contradiction

end Trim

/-! ## What is woven -/

/-- Behind the trivia the first token is significant. -/
theorem isTrivia_head?_afterTrivia (ts : List Token) {t : Token}
    (h : (afterTrivia ts).head? = some t) : t.kind.isTrivia = false := by
  have hhead := List.head?_dropWhile_not (fun t : Token ↦ t.kind.isTrivia) ts
  rw [← afterTrivia, h] at hhead
  simpa using hhead

theorem lastOf?_append {α : Type} (ts us : List (Tree α)) :
    lastOf? (ts ++ us) = (lastOf? us).or (lastOf? ts) := by
  simp only [lastOf?_eq_getLast?, leavesAll_append, List.getLast?_append]

theorem Solid.leaves_ne_nil {α : Type} {t : Tree α} (h : t.Solid) : t.leaves ≠ [] := by
  cases t with
  | leaf a => exact List.cons_ne_nil a []
  | node kind children => exact h.1

theorem forall_trim_map_leaf (ts : List Token) : ∀ t ∈ ts.map leaf, t.Trim := by
  intro t ht
  obtain ⟨a, -, rfl⟩ := List.mem_map.mp ht
  exact .leaf a

mutual

theorem trim_weave : (shape : Tree Lexeme) → (ts : List Token) → (rest : List Lexeme) →
    shape.Solid → significantOf ts = shape.leaves ++ rest →
      (∀ t ∈ (weave shape ts).1, t.Trim) ∧
        ∃ t, lastOf? (weave shape ts).1 = some t ∧ t.kind.isTrivia = false
  | leaf l, ts, rest, _, h => by
    obtain ⟨t, us, hafter, ht, -⟩ := afterTrivia_eq_cons h
    rw [weave, hafter]
    refine ⟨forall_trim_map_leaf _, t, ?_, ht⟩
    rw [List.take_succ_cons, List.take_zero, List.map_append, lastOf?_append]
    rfl
  | node kind children, ts, rest, hsolid, h => by
    rw [leaves, ← significantOf_afterTrivia] at h
    obtain ⟨htrim, hlast⟩ := trim_weaveAll children (afterTrivia ts) rest hsolid.2 h
    obtain ⟨l, hl, htrivia⟩ := hlast hsolid.1
    have hleaves := leaves_weaveAll children (afterTrivia ts)
    have hfirst : ∃ t, firstOf? (weaveAll children (afterTrivia ts)).1 = some t ∧
        t.kind.isTrivia = false := by
      rw [lastOf?_eq_getLast?] at hl
      rw [firstOf?_eq_head?]
      cases hall : leavesAll (weaveAll children (afterTrivia ts)).1 with
      | nil =>
        rw [hall] at hl
        contradiction
      | cons t us =>
        refine ⟨t, rfl, isTrivia_head?_afterTrivia ts ?_⟩
        rw [← hleaves, hall]
        rfl
    have hnode : (Tree.node kind (weaveAll children (afterTrivia ts)).1).Trim :=
      .node hfirst ⟨l, hl, htrivia⟩ htrim
    rw [weave]
    refine ⟨fun t ht ↦ ?_, l, ?_, htrivia⟩
    · rcases List.mem_append.mp ht with ht | ht
      · exact forall_trim_map_leaf _ t ht
      · rwa [List.mem_singleton.mp ht]
    · rw [lastOf?_append, lastOf?, lastOf?, last?, hl]
      rfl

/-- **What is woven is trim**, and ends with a significant token if there is one to take. -/
theorem trim_weaveAll : (shapes : List (Tree Lexeme)) → (ts : List Token) →
    (rest : List Lexeme) → SolidAll shapes → significantOf ts = leavesAll shapes ++ rest →
      (∀ t ∈ (weaveAll shapes ts).1, t.Trim) ∧
        (leavesAll shapes ≠ [] →
          ∃ t, lastOf? (weaveAll shapes ts).1 = some t ∧ t.kind.isTrivia = false)
  | [], ts, _, _, _ => ⟨fun _ ht ↦ absurd ht List.not_mem_nil, fun h ↦ absurd rfl h⟩
  | shape :: shapes, ts, rest, hsolid, h => by
    rw [leavesAll, List.append_assoc] at h
    obtain ⟨htrim, t, ht, htrivia⟩ := trim_weave shape ts _ hsolid.1 h
    have hmid := (bareAll_weave shape ts _ h).2
    obtain ⟨htrim', hlast'⟩ := trim_weaveAll shapes _ rest hsolid.2 hmid
    rw [weaveAll]
    refine ⟨fun t ht ↦ (List.mem_append.mp ht).elim (htrim t) (htrim' t), fun _ ↦ ?_⟩
    dsimp only
    rw [lastOf?_append]
    cases shapes with
    | nil => exact ⟨t, ht, htrivia⟩
    | cons other shapes =>
      have hother : leavesAll (other :: shapes) ≠ [] := by
        rw [leavesAll]
        exact List.append_ne_nil_of_left_ne_nil hsolid.2.1.leaves_ne_nil _
      obtain ⟨u, hu, hutrivia⟩ := hlast' hother
      exact ⟨u, by rw [hu, Option.some_or], hutrivia⟩

end

end Tree

namespace Document

variable {source : String} {t : Tree Token}

/-- The patterns of a text are trim. -/
theorem trim_of_mem_children (ht : t ∈ (parse source).tree.children) : t.Trim := by
  have hsolid := Production.solidAll_trees_root (significant source)
  have hleaves : significantOf (tokenize source) =
      Tree.leavesAll (Production.root (significant source)).trees ++ [] := by
    rw [Production.leavesAll_trees_root, List.append_nil]
    rfl
  rcases List.mem_append.mp ht with ht | ht
  · exact (Tree.trim_weaveAll _ _ [] hsolid hleaves).1 t ht
  · exact Tree.forall_trim_map_leaf _ t ht

end Document

end Concord.Query
