import Concord.Proofs.Query.Weaving
import Concord.Query.Expr

/-!
# What is read off the tokens of a node

An expression is read off a node by looking for tokens among its direct children: a node type, a
name, a mark.  No such look finds trivia, and none sees where a token stands.  So all of them can
be stated over the significant lexemes among the children, and `leafChildren_bareAll` says that
these are the direct children of the node without its trivia.
-/

set_option autoImplicit false

namespace Concord.Query

/-- The text of a lexeme as a string. -/
def Lexeme.string (l : Lexeme) : String := String.ofList l.text

/-- The text of a lexeme without its one-character marker. -/
def Lexeme.name (l : Lexeme) : String := String.ofList l.text.tail

/-! ## Tokens among significant lexemes -/

/-- A token that is no trivia is found among the significant lexemes. -/
theorem map_tokenOf? {β : Type} (g : Lexeme → β) {p : TokenKind → Bool}
    (hp : ∀ k, k.isTrivia = true → p k = false) (ts : List Token) :
    (tokenOf? p ts).map (fun t ↦ g t.toLexeme) = ((significantOf ts).find? (p ·.kind)).map g := by
  induction ts with
  | nil => rfl
  | cons t ts ih =>
    rw [tokenOf?] at ih ⊢
    rw [significantOf_cons, List.find?_cons]
    cases htrivia : t.kind.isTrivia with
    | true => rw [hp t.kind htrivia, if_pos rfl, ih]
    | false =>
      rw [if_neg Bool.false_ne_true, List.find?_cons]
      cases p t.kind with
      | true => rfl
      | false => exact ih

theorem ne_of_isTrivia {kind : TokenKind} (hkind : kind.isTrivia = false) (k : TokenKind)
    (hk : k.isTrivia = true) : decide (k = kind) = false := by
  rw [decide_eq_false_iff_not]
  rintro rfl
  rw [hk] at hkind
  contradiction

theorem nodeTypeOf?_eq (ts : List Token) :
    nodeTypeOf? ts =
      ((significantOf ts).find? fun l ↦ decide (l.kind = .ident ∨ l.kind = .underscore)).map
        Lexeme.string :=
  map_tokenOf? Lexeme.string (fun k ↦ by cases k <;> decide) ts

/-- What stands behind the first lexeme of a kind stands behind the first token of it. -/
theorem significantOf_dropWhile {k : TokenKind} (hk : k.isTrivia = false) (ts : List Token) :
    significantOf (ts.dropWhile (·.kind ≠ k)) = (significantOf ts).dropWhile (·.kind ≠ k) := by
  induction ts with
  | nil => rfl
  | cons t ts ih =>
    by_cases ht : t.kind = k
    · have htrivia : t.kind.isTrivia = false := by rw [ht, hk]
      rw [List.dropWhile_cons_of_neg (by simp [ht]), significantOf_cons, htrivia,
        if_neg Bool.false_ne_true, List.dropWhile_cons_of_neg (by simp [ht])]
    · rw [List.dropWhile_cons_of_pos (by simp [ht]), ih, significantOf_cons]
      split
      · rfl
      · rw [List.dropWhile_cons_of_pos (by simp [ht])]

theorem subtypeOf?_eq (ts : List Token) :
    subtypeOf? ts =
      (((significantOf ts).dropWhile (·.kind ≠ .slash)).find? (·.kind = .ident)).map
        Lexeme.string := by
  rw [← significantOf_dropWhile rfl]
  exact map_tokenOf? Lexeme.string (ne_of_isTrivia rfl) _

theorem fieldNameOf?_eq (ts : List Token) :
    fieldNameOf? ts = ((significantOf ts).find? (·.kind = .ident)).map Lexeme.string :=
  map_tokenOf? Lexeme.string (ne_of_isTrivia rfl) ts

theorem quantifierOf?_eq (ts : List Token) :
    (tokenOf? TokenKind.isQuantifier ts).map Token.string =
      ((significantOf ts).find? (·.kind.isQuantifier)).map Lexeme.string :=
  map_tokenOf? Lexeme.string (fun k ↦ by cases k <;> decide) ts

theorem strValOf?_eq (ts : List Token) :
    (tokenOf? (· = .strVal) ts).map (·.text) =
      ((significantOf ts).find? (·.kind = .strVal)).map Lexeme.text :=
  map_tokenOf? Lexeme.text (ne_of_isTrivia rfl) ts

theorem predicateNameOf?_eq (ts : List Token) :
    (tokenOf? (· = .predicateName) ts).map Token.name =
      ((significantOf ts).find? (·.kind = .predicateName)).map Lexeme.name :=
  map_tokenOf? Lexeme.name (ne_of_isTrivia rfl) ts

theorem captureNamesOf_eq (ts : List Token) :
    captureNamesOf ts =
      ((significantOf ts).filter (·.kind = .captureName)).map Lexeme.name := by
  induction ts with
  | nil => rfl
  | cons t ts ih =>
    rw [captureNamesOf] at ih ⊢
    rw [significantOf_cons]
    by_cases ht : t.kind = .captureName
    · rw [List.filter_cons_of_pos (by simp [ht]), ht, if_neg (by decide),
        List.filter_cons_of_pos (by simp [ht]), List.map_cons, List.map_cons, ih]
      rfl
    · rw [List.filter_cons_of_neg (by simp [ht]), ih]
      split
      · rfl
      · rw [List.filter_cons_of_neg (by simp [ht])]

/-! ## The direct children of a node -/

namespace Tree

theorem leafChildren_append {α : Type} (ts us : List (Tree α)) :
    leafChildren (ts ++ us) = leafChildren ts ++ leafChildren us := by
  induction ts with
  | nil => rfl
  | cons t ts ih => cases t <;> simp [leafChildren, ih]

theorem leafChildren_map_leaf {α : Type} (as : List α) : leafChildren (as.map leaf) = as := by
  induction as with
  | nil => rfl
  | cons a as ih => rw [List.map_cons, leafChildren, ih]

/-- The significant lexemes among direct children are the direct children without trivia. -/
theorem leafChildren_bareAll (ts : List (Tree Token)) :
    leafChildren (bareAll ts) = significantOf (leafChildren ts) := by
  induction ts with
  | nil => rfl
  | cons t ts ih =>
    rw [bareAll, leafChildren_append, ih]
    cases t with
    | leaf t =>
      rw [bare, leafChildren, significantOf_cons]
      split <;> rfl
    | node kind children => rfl

end Tree

end Concord.Query
