import Concord.Proofs.Query.Conservation
import Concord.Query.Lexing

/-!
# Laying tokens over trees

The productions build trees over the significant lexemes of a text, and `Tree.weave` lays the
tokens of the text over them.  This file says what that does to the trees.

* `bareAll_weaveAll` — nothing that matters.  Without trivia and without places, woven trees are
  the trees that the productions built.
* `woven_append` — trees take no more tokens than they have leaves.  So the trees of two texts,
  one behind the other, can be woven apart from each other.
* `woven_map` — weaving looks only at the kinds of tokens, so it does not matter where they stand.
-/

set_option autoImplicit false

namespace Concord.Query

/-! ## Significant lexemes -/

/-- The lexemes of a token stream that are not trivia. -/
def significantOf (ts : List Token) : List Lexeme :=
  (ts.filter (!·.kind.isTrivia)).map Token.toLexeme

@[simp] theorem significantOf_nil : significantOf [] = [] := rfl

@[simp] theorem significantOf_append (ts us : List Token) :
    significantOf (ts ++ us) = significantOf ts ++ significantOf us := by
  simp [significantOf]

theorem significantOf_cons (t : Token) (ts : List Token) :
    significantOf (t :: ts) =
      if t.kind.isTrivia then significantOf ts else t.toLexeme :: significantOf ts := by
  cases h : t.kind.isTrivia <;> simp [significantOf, h]

theorem significantOf_eq_nil_iff {ts : List Token} :
    significantOf ts = [] ↔ ∀ t ∈ ts, t.kind.isTrivia = true := by
  simp [significantOf]

/-- The lexemes of a text that are not trivia. -/
def significant (source : String) : List Lexeme := significantOf (tokenize source)

theorem significant_eq_filter (source : String) :
    significant source = (scan source.toList).filter (!·.kind.isTrivia) := by
  have h : ∀ ts : List Token,
      significantOf ts = (ts.map Token.toLexeme).filter (!·.kind.isTrivia) := by
    intro ts
    rw [List.filter_map]
    rfl
  rw [significant, h, tokenize, Token.map_toLexeme_placeAll]

namespace Tree

theorem isTrivia_of_mem_leadingTrivia (ts : List Token) :
    ∀ t ∈ leadingTrivia ts, t.kind.isTrivia = true := by
  intro t ht
  exact List.all_eq_true.mp List.all_takeWhile t ht

theorem significantOf_afterTrivia (ts : List Token) :
    significantOf (afterTrivia ts) = significantOf ts := by
  have hleading := significantOf_eq_nil_iff.mpr (isTrivia_of_mem_leadingTrivia ts)
  rw [← leadingTrivia_append ts, significantOf_append, hleading, leadingTrivia_append,
    List.nil_append]

/-- Behind the trivia stands the first significant lexeme. -/
theorem afterTrivia_eq_cons {ts : List Token} {l : Lexeme} {ls : List Lexeme}
    (h : significantOf ts = l :: ls) :
    ∃ t us, afterTrivia ts = t :: us ∧ t.kind.isTrivia = false ∧ t.toLexeme = l ∧
      significantOf us = ls := by
  rw [← significantOf_afterTrivia] at h
  cases hafter : afterTrivia ts with
  | nil =>
    rw [hafter] at h
    contradiction
  | cons t us =>
    have ht : t.kind.isTrivia = false := by
      have hhead := List.head?_dropWhile_not (fun t : Token ↦ t.kind.isTrivia) ts
      rw [← afterTrivia, hafter] at hhead
      simpa using hhead
    rw [hafter, significantOf_cons, ht, if_neg Bool.false_ne_true] at h
    obtain ⟨hl, hls⟩ := List.cons.inj h
    exact ⟨t, us, rfl, ht, hl, hls⟩

/-- Where a significant token is ahead, what stands further behind does not change the trivia in
front of it. -/
theorem leadingTrivia_append_of_ne_nil {ts : List Token} (h : significantOf ts ≠ [])
    (us : List Token) :
    leadingTrivia (ts ++ us) = leadingTrivia ts ∧
      afterTrivia (ts ++ us) = afterTrivia ts ++ us := by
  induction ts with
  | nil => exact absurd rfl h
  | cons t ts ih =>
    rw [significantOf_cons] at h
    cases ht : t.kind.isTrivia with
    | false => simp [leadingTrivia, afterTrivia, ht]
    | true =>
      rw [ht, if_pos rfl] at h
      obtain ⟨hleading, hafter⟩ := ih h
      simp only [leadingTrivia, afterTrivia] at hleading hafter
      simp [leadingTrivia, afterTrivia, ht, hleading, hafter]

/-- Trivia in front of a token stream are leading trivia. -/
theorem leadingTrivia_trivia_append {ts : List Token} (h : significantOf ts = [])
    (us : List Token) :
    leadingTrivia (ts ++ us) = ts ++ leadingTrivia us ∧
      afterTrivia (ts ++ us) = afterTrivia us := by
  rw [significantOf_eq_nil_iff] at h
  exact ⟨List.takeWhile_append_of_pos h, List.dropWhile_append_of_pos h⟩

/-! ## Trees without trivia -/

mutual

/-- A tree without trivia and without places; a leaf that is trivia leaves nothing. -/
def bare : Tree Token → List (Tree Lexeme)
  | leaf t => if t.kind.isTrivia then [] else [leaf t.toLexeme]
  | node kind children => [node kind (bareAll children)]

/-- Trees without trivia and without places. -/
def bareAll : List (Tree Token) → List (Tree Lexeme)
  | [] => []
  | t :: ts => bare t ++ bareAll ts

end

@[simp] theorem bareAll_append (ts us : List (Tree Token)) :
    bareAll (ts ++ us) = bareAll ts ++ bareAll us := by
  induction ts with
  | nil => rfl
  | cons t ts ih => rw [List.cons_append, bareAll, bareAll, ih, List.append_assoc]

theorem bareAll_map_leaf (ts : List Token) :
    bareAll (ts.map leaf) = (significantOf ts).map leaf := by
  induction ts with
  | nil => rfl
  | cons t ts ih =>
    rw [List.map_cons, bareAll, bare, ih, significantOf_cons]
    split <;> rfl

mutual

theorem leavesAll_bare : (t : Tree Token) → leavesAll (bare t) = significantOf t.leaves
  | leaf t => by
    rw [bare, leaves, significantOf_cons]
    split <;> simp [leavesAll, leaves]
  | node kind children => by
    rw [bare, leavesAll, leaves, leaves, leavesAll_bareAll children, leavesAll, List.append_nil]

/-- Taking out trivia takes them out of the leaves. -/
theorem leavesAll_bareAll : (ts : List (Tree Token)) →
    leavesAll (bareAll ts) = significantOf (leavesAll ts)
  | [] => by rw [bareAll, leavesAll, leavesAll, significantOf_nil]
  | t :: ts => by
    rw [bareAll, leavesAll_append, leavesAll_bare t, leavesAll_bareAll ts, leavesAll,
      significantOf_append]

end

mutual

theorem solid_of_bare : (t : Tree Token) → SolidAll (bare t) → t.Solid
  | leaf _, _ => trivial
  | node kind children, h => by
    rw [bare] at h
    obtain ⟨⟨hne, hall⟩, -⟩ := h
    refine ⟨fun hnil ↦ hne ?_, solidAll_of_bareAll children hall⟩
    rw [leavesAll_bareAll, hnil, significantOf_nil]

/-- Trees are solid if they are without their trivia. -/
theorem solidAll_of_bareAll : (ts : List (Tree Token)) → SolidAll (bareAll ts) → SolidAll ts
  | [], _ => trivial
  | t :: ts, h => by
    rw [bareAll, solidAll_append] at h
    exact ⟨solid_of_bare t h.1, solidAll_of_bareAll ts h.2⟩

end

/-! ## What is woven -/

mutual

theorem bareAll_weave : (shape : Tree Lexeme) → (ts : List Token) → (rest : List Lexeme) →
    significantOf ts = shape.leaves ++ rest →
      bareAll (weave shape ts).1 = [shape] ∧ significantOf (weave shape ts).2 = rest
  | leaf l, ts, rest, h => by
    obtain ⟨t, us, hafter, ht, rfl, hus⟩ := afterTrivia_eq_cons h
    have hleading := significantOf_eq_nil_iff.mpr (isTrivia_of_mem_leadingTrivia ts)
    rw [weave, hafter]
    refine ⟨?_, hus⟩
    rw [bareAll_map_leaf, significantOf_append, hleading, List.take_succ_cons, List.take_zero,
      significantOf_cons, ht]
    rfl
  | node kind children, ts, rest, h => by
    rw [leaves, ← significantOf_afterTrivia] at h
    obtain ⟨hbare, hrest⟩ := bareAll_weaveAll children (afterTrivia ts) rest h
    have hleading := significantOf_eq_nil_iff.mpr (isTrivia_of_mem_leadingTrivia ts)
    rw [weave]
    refine ⟨?_, hrest⟩
    rw [bareAll_append, bareAll_map_leaf, hleading, bareAll, bare, hbare]
    rfl

/-- **Weaving adds trivia and places and nothing else**, and takes the tokens of the leaves. -/
theorem bareAll_weaveAll : (shapes : List (Tree Lexeme)) → (ts : List Token) →
    (rest : List Lexeme) → significantOf ts = leavesAll shapes ++ rest →
      bareAll (weaveAll shapes ts).1 = shapes ∧ significantOf (weaveAll shapes ts).2 = rest
  | [], _, _, h => ⟨rfl, h⟩
  | shape :: shapes, ts, rest, h => by
    rw [leavesAll, List.append_assoc] at h
    obtain ⟨hbare, hmid⟩ := bareAll_weave shape ts _ h
    obtain ⟨hbare', hrest⟩ := bareAll_weaveAll shapes _ rest hmid
    rw [weaveAll]
    refine ⟨?_, hrest⟩
    rw [bareAll_append, hbare, hbare', List.singleton_append]

end

mutual

theorem weave_append : (shape : Tree Lexeme) → (ts us : List Token) → (rest : List Lexeme) →
    shape.Solid → significantOf ts = shape.leaves ++ rest →
      weave shape (ts ++ us) = ((weave shape ts).1, (weave shape ts).2 ++ us)
  | leaf l, ts, us, rest, _, h => by
    have hne : significantOf ts ≠ [] := by
      rw [h]
      exact List.cons_ne_nil l rest
    obtain ⟨hleading, hafter⟩ := leadingTrivia_append_of_ne_nil hne us
    obtain ⟨t, vs, hcons, -⟩ := afterTrivia_eq_cons h
    rw [weave, weave, hleading, hafter, hcons]
    rfl
  | node kind children, ts, us, rest, hsolid, h => by
    have hne : significantOf ts ≠ [] := by
      rw [h, leaves]
      exact fun hnil ↦ hsolid.1 (List.append_eq_nil_iff.mp hnil).1
    obtain ⟨hleading, hafter⟩ := leadingTrivia_append_of_ne_nil hne us
    rw [leaves, ← significantOf_afterTrivia] at h
    rw [weave, weave, hleading, hafter, weaveAll_append_tokens children _ us rest hsolid.2 h]

/-- Solid trees take no more tokens than they have leaves. -/
theorem weaveAll_append_tokens : (shapes : List (Tree Lexeme)) → (ts us : List Token) →
    (rest : List Lexeme) → SolidAll shapes → significantOf ts = leavesAll shapes ++ rest →
      weaveAll shapes (ts ++ us) = ((weaveAll shapes ts).1, (weaveAll shapes ts).2 ++ us)
  | [], _, _, _, _, _ => rfl
  | shape :: shapes, ts, us, rest, hsolid, h => by
    rw [leavesAll, List.append_assoc] at h
    have hmid := (bareAll_weave shape ts _ h).2
    rw [weaveAll, weaveAll, weave_append shape ts us _ hsolid.1 h]
    dsimp only
    rw [weaveAll_append_tokens shapes _ us rest hsolid.2 hmid]

end

theorem weaveAll_append (shapes shapes' : List (Tree Lexeme)) (ts : List Token) :
    weaveAll (shapes ++ shapes') ts =
      ((weaveAll shapes ts).1 ++ (weaveAll shapes' (weaveAll shapes ts).2).1,
        (weaveAll shapes' (weaveAll shapes ts).2).2) := by
  induction shapes generalizing ts with
  | nil => rfl
  | cons shape shapes ih =>
    rw [List.cons_append, weaveAll, weaveAll]
    dsimp only
    rw [ih, List.append_assoc]

/-- Trivia in front of a tree stand in front of it. -/
theorem weave_trivia_append (shape : Tree Lexeme) {ts : List Token} (h : significantOf ts = [])
    (us : List Token) :
    weave shape (ts ++ us) = (ts.map leaf ++ (weave shape us).1, (weave shape us).2) := by
  obtain ⟨hleading, hafter⟩ := leadingTrivia_trivia_append h us
  cases shape with
  | leaf l => rw [weave, weave, hleading, hafter, List.append_assoc, List.map_append]
  | node kind children =>
    simp only [weave, hleading, hafter, List.map_append, List.append_assoc]

/-! ## A whole token stream -/

/-- The children of the root when a token stream is laid over the trees of a document. -/
def woven (shapes : List (Tree Lexeme)) (ts : List Token) : List (Tree Token) :=
  (weaveAll shapes ts).1 ++ (weaveAll shapes ts).2.map leaf

theorem woven_nil (ts : List Token) : woven [] ts = ts.map leaf := rfl

theorem woven_trivia_append (shapes : List (Tree Lexeme)) {ts : List Token}
    (h : significantOf ts = []) (us : List Token) :
    woven shapes (ts ++ us) = ts.map leaf ++ woven shapes us := by
  cases shapes with
  | nil => rw [woven_nil, woven_nil, List.map_append]
  | cons shape shapes =>
    rw [woven, woven, weaveAll, weaveAll, weave_trivia_append shape h]
    simp only [List.append_assoc]

/-- **Documents side by side are woven apart.**  The trees of the first take its tokens, and the
others are left for the trees of the second. -/
theorem woven_append {shapes : List (Tree Lexeme)} {ts : List Token} (hsolid : SolidAll shapes)
    (h : significantOf ts = leavesAll shapes) (shapes' : List (Tree Lexeme)) (us : List Token) :
    woven (shapes ++ shapes') (ts ++ us) = woven shapes ts ++ woven shapes' us := by
  rw [← List.append_nil (leavesAll shapes)] at h
  have hleft := (bareAll_weaveAll shapes ts [] h).2
  have htrivia := woven_trivia_append shapes' hleft us
  rw [woven] at htrivia
  rw [woven, weaveAll_append, weaveAll_append_tokens shapes ts us [] hsolid h]
  dsimp only
  rw [List.append_assoc, htrivia, ← List.append_assoc, ← woven]

/-- Without trivia, a document is the trees that it was woven from. -/
theorem bareAll_woven {shapes : List (Tree Lexeme)} {ts : List Token}
    (h : significantOf ts = leavesAll shapes) : bareAll (woven shapes ts) = shapes := by
  rw [← List.append_nil (leavesAll shapes)] at h
  obtain ⟨hbare, hleft⟩ := bareAll_weaveAll shapes ts [] h
  rw [woven, bareAll_append, hbare, bareAll_map_leaf, hleft, List.map_nil, List.append_nil]

/-! ## Moving tokens -/

section Map

variable {α β : Type}

mutual

/-- Applies a function to the leaves of a tree. -/
def map (f : α → β) : Tree α → Tree β
  | leaf a => leaf (f a)
  | node kind children => node kind (mapAll f children)

/-- Applies a function to the leaves of some trees. -/
def mapAll (f : α → β) : List (Tree α) → List (Tree β)
  | [] => []
  | t :: ts => map f t :: mapAll f ts

end

@[simp] theorem mapAll_append (f : α → β) (ts us : List (Tree α)) :
    mapAll f (ts ++ us) = mapAll f ts ++ mapAll f us := by
  induction ts with
  | nil => rfl
  | cons t ts ih => rw [List.cons_append, mapAll, mapAll, ih, List.cons_append]

@[simp] theorem mapAll_map_leaf (f : α → β) (as : List α) :
    mapAll f (as.map leaf) = (as.map f).map leaf := by
  induction as with
  | nil => rfl
  | cons a as ih => rw [List.map_cons, mapAll, map, ih, List.map_cons, List.map_cons]

mutual

theorem leaves_map (f : α → β) : (t : Tree α) → (map f t).leaves = t.leaves.map f
  | leaf a => by rw [map, leaves, leaves, List.map_singleton]
  | node kind children => by rw [map, leaves, leaves, leavesAll_mapAll f children]

theorem leavesAll_mapAll (f : α → β) : (ts : List (Tree α)) →
    leavesAll (mapAll f ts) = (leavesAll ts).map f
  | [] => by rw [mapAll, leavesAll, leavesAll, List.map_nil]
  | t :: ts => by
    rw [mapAll, leavesAll, leavesAll, leaves_map f t, leavesAll_mapAll f ts, List.map_append]

end

theorem leafChildren_mapAll (f : α → β) (ts : List (Tree α)) :
    leafChildren (mapAll f ts) = (leafChildren ts).map f := by
  induction ts with
  | nil => rfl
  | cons t ts ih =>
    cases t with
    | leaf a => rw [mapAll, map, leafChildren, leafChildren, ih, List.map_cons]
    | node kind children => rw [mapAll, map, leafChildren, leafChildren, ih]

end Map

variable {f : Token → Token}

theorem leadingTrivia_map (hf : ∀ t, (f t).kind = t.kind) (ts : List Token) :
    leadingTrivia (ts.map f) = (leadingTrivia ts).map f ∧
      afterTrivia (ts.map f) = (afterTrivia ts).map f := by
  simp [leadingTrivia, afterTrivia, List.takeWhile_map, List.dropWhile_map, Function.comp_def, hf]

mutual

theorem weave_map (hf : ∀ t, (f t).kind = t.kind) : (shape : Tree Lexeme) → (ts : List Token) →
    weave shape (ts.map f) = (mapAll f (weave shape ts).1, (weave shape ts).2.map f)
  | leaf l, ts => by
    obtain ⟨hleading, hafter⟩ := leadingTrivia_map hf ts
    rw [weave, weave, hleading, hafter, mapAll_map_leaf, ← List.map_take, ← List.map_append,
      List.map_drop]
  | node kind children, ts => by
    obtain ⟨hleading, hafter⟩ := leadingTrivia_map hf ts
    rw [weave, weave, hleading, hafter, weaveAll_map hf children]
    dsimp only
    rw [mapAll_append, mapAll_map_leaf, mapAll, map, mapAll]

theorem weaveAll_map (hf : ∀ t, (f t).kind = t.kind) : (shapes : List (Tree Lexeme)) →
    (ts : List Token) →
      weaveAll shapes (ts.map f) = (mapAll f (weaveAll shapes ts).1, (weaveAll shapes ts).2.map f)
  | [], _ => rfl
  | shape :: shapes, ts => by
    rw [weaveAll, weaveAll, weave_map hf shape ts]
    dsimp only
    rw [weaveAll_map hf shapes, mapAll_append]

end

/-- **Weaving does not see where tokens stand.** -/
theorem woven_map (hf : ∀ t, (f t).kind = t.kind) (shapes : List (Tree Lexeme))
    (ts : List Token) : woven shapes (ts.map f) = mapAll f (woven shapes ts) := by
  rw [woven, woven, weaveAll_map hf, mapAll_append, mapAll_map_leaf]

end Tree

end Concord.Query
