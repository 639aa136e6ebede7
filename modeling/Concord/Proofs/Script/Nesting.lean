import Concord.Script.Token

/-!
# How delimiters nest

Which delimiters stand around a token is a matter of the token list alone, and no stack is needed to
say it: the delimiter that was opened last is the innermost one if all that was opened behind it has
been closed again.

* `Balanced` holds of token lists whose delimiters match, and `balanced_iff` says how to find that
  out from left to right, with a list of what is open.
* `Innermost front j` says that token number `j` opens the innermost delimiter that is open behind
  `front`.  There is at most one (`Innermost.unique`).
* `Layers front js` numbers all delimiters that are open behind `front`.  The lemmas on it say what
  one more token does to them, and `Layers.innermost_iff` that the first is the innermost.
-/

set_option autoImplicit false

namespace Concord.Script

/-- Whether a token opens or closes a delimiter. -/
def TokenKind.isDelimiter : TokenKind → Bool
  | opening _ | closing _ => true
  | _ => false

/-! ## Balanced token lists -/

/-- Token lists in which every delimiter that is opened is closed by one of its kind, and the other
way round. -/
inductive Balanced : List Token → Prop
  | nil : Balanced []
  | plain {t : Token} {ts : List Token} (ht : t.kind.isDelimiter = false) (h : Balanced ts) :
      Balanced (t :: ts)
  | pair {d : Delimiter} {o c : Token} {inner ts : List Token} (ho : o.kind = .opening d)
      (hc : c.kind = .closing d) (hinner : Balanced inner) (h : Balanced ts) :
      Balanced (o :: (inner ++ c :: ts))

theorem Balanced.append {ts us : List Token} (hts : Balanced ts) (hus : Balanced us) :
    Balanced (ts ++ us) := by
  induction hts with
  | nil => exact hus
  | plain ht _ ih => exact .plain ht ih
  | pair ho hc hinner _ _ ih =>
    rw [List.cons_append, List.append_assoc, List.cons_append]
    exact .pair ho hc hinner ih

/-- The delimiters that are open behind a token list, the innermost first, where `ds` were open in
front of it; none if one is closed that is not the innermost. -/
def unclosed (ds : List Delimiter) : List Token → Option (List Delimiter)
  | [] => some ds
  | t :: ts => match t.kind with
    | .opening d => unclosed (d :: ds) ts
    | .closing d => if ds.head? = some d then unclosed ds.tail ts else none
    | _ => unclosed ds ts

section Unclosed

variable {ds : List Delimiter} {t : Token} {ts : List Token} {d : Delimiter}

theorem unclosed_opening (ht : t.kind = .opening d) :
    unclosed ds (t :: ts) = unclosed (d :: ds) ts := by
  rw [unclosed, ht]

theorem unclosed_closing (ht : t.kind = .closing d) :
    unclosed (d :: ds) (t :: ts) = unclosed ds ts := by
  rw [unclosed, ht]
  simp

theorem unclosed_plain (ht : t.kind.isDelimiter = false) :
    unclosed ds (t :: ts) = unclosed ds ts := by
  rw [unclosed]
  cases hkind : t.kind <;> simp_all [TokenKind.isDelimiter]

end Unclosed

theorem unclosed_append (ds : List Delimiter) (ts us : List Token) :
    unclosed ds (ts ++ us) = (unclosed ds ts).bind (unclosed · us) := by
  induction ts generalizing ds with
  | nil => rfl
  | cons t ts ih =>
    rw [List.cons_append, unclosed, unclosed]
    split
    · exact ih _
    · split
      · exact ih _
      · rfl
    · exact ih _

/-- A balanced token list leaves open what was open in front of it. -/
theorem Balanced.unclosed_eq {ts : List Token} (h : Balanced ts) (ds : List Delimiter) :
    unclosed ds ts = some ds := by
  induction h generalizing ds with
  | nil => rfl
  | plain ht _ ih => rw [unclosed_plain ht, ih]
  | pair ho hc _ _ ihinner ih =>
    rw [unclosed_opening ho, unclosed_append, ihinner, Option.bind_some, unclosed_closing hc, ih]

/-- A token list that closes all that is open closes the innermost delimiter first. -/
theorem exists_of_unclosed_cons {d : Delimiter} {ds : List Delimiter} {ts : List Token}
    (h : unclosed (d :: ds) ts = some []) :
    ∃ inner c rest, ts = inner ++ c :: rest ∧ c.kind = .closing d ∧ Balanced inner ∧
      unclosed ds rest = some [] := by
  induction hn : ts.length using Nat.strongRecOn generalizing d ds ts with
  | ind n ih =>
    cases ts with
    | nil => simp [unclosed] at h
    | cons t ts =>
      have hlt : ts.length < n := by simp at hn; omega
      cases hkind : t.kind.isDelimiter with
      | false =>
        rw [unclosed_plain hkind] at h
        obtain ⟨inner, c, rest, rfl, hc, hinner, hrest⟩ := ih _ hlt h rfl
        exact ⟨t :: inner, c, rest, rfl, hc, .plain hkind hinner, hrest⟩
      | true =>
        cases ht : t.kind with
        | opening e =>
          rw [unclosed_opening ht] at h
          obtain ⟨inner, c, rest, rfl, hc, hinner, hrest⟩ := ih _ hlt h rfl
          have hlt' : rest.length < n := by simp at hlt; omega
          obtain ⟨inner', c', rest', rfl, hc', hinner', hrest'⟩ := ih _ hlt' hrest rfl
          refine ⟨t :: (inner ++ c :: inner'), c', rest', by simp, hc', ?_, hrest'⟩
          exact .pair ht hc hinner hinner'
        | closing e =>
          rw [unclosed, ht] at h
          by_cases he : d = e
          · subst he
            exact ⟨[], t, ts, rfl, ht, .nil, by simpa using h⟩
          · simp [he] at h
        | _ => simp [ht, TokenKind.isDelimiter] at hkind

theorem balanced_of_unclosed {ts : List Token} (h : unclosed [] ts = some []) : Balanced ts := by
  induction hn : ts.length using Nat.strongRecOn generalizing ts with
  | ind n ih =>
    cases ts with
    | nil => exact .nil
    | cons t ts =>
      have hlt : ts.length < n := by simp at hn; omega
      cases hkind : t.kind.isDelimiter with
      | false =>
        rw [unclosed_plain hkind] at h
        exact .plain hkind (ih _ hlt h rfl)
      | true =>
        cases ht : t.kind with
        | opening d =>
          rw [unclosed_opening ht] at h
          obtain ⟨inner, c, rest, rfl, hc, hinner, hrest⟩ := exists_of_unclosed_cons h
          have hlt' : rest.length < n := by simp at hlt; omega
          exact .pair ht hc hinner (ih _ hlt' hrest rfl)
        | closing d => simp [unclosed, ht] at h
        | _ => simp [ht, TokenKind.isDelimiter] at hkind

/-- **Whether delimiters match can be found out from left to right.** -/
theorem balanced_iff {ts : List Token} : Balanced ts ↔ unclosed [] ts = some [] :=
  ⟨fun h ↦ h.unclosed_eq [], balanced_of_unclosed⟩

instance (ts : List Token) : Decidable (Balanced ts) := decidable_of_iff _ balanced_iff.symm

/-- No delimiter stays open in a balanced token list. -/
theorem not_balanced_of_opening {outer inner : List Token} {o : Token} {d : Delimiter}
    (ho : o.kind = .opening d) (hinner : Balanced inner) : ¬ Balanced (outer ++ o :: inner) := by
  intro h
  have heq := h.unclosed_eq []
  rw [unclosed_append] at heq
  obtain ⟨ds, -, hds⟩ := Option.bind_eq_some_iff.mp heq
  rw [unclosed_opening ho, hinner.unclosed_eq] at hds
  exact List.cons_ne_nil d ds (Option.some.inj hds)

/-! ## The innermost delimiter -/

/-- Token number `j` opens the innermost delimiter that is open behind the tokens `front`: all that
is opened behind it is closed again. -/
def Innermost (front : List Token) (j : Nat) : Prop :=
  ∃ outer o inner, front = outer ++ o :: inner ∧ outer.length = j ∧
    (∃ d, o.kind = .opening d) ∧ Balanced inner

theorem not_balanced_of_innermost {front : List Token} {j : Nat} (h : Innermost front j) :
    ¬ Balanced front := by
  obtain ⟨outer, o, inner, rfl, -, ⟨d, ho⟩, hinner⟩ := h
  exact not_balanced_of_opening ho hinner

theorem Innermost.le {front : List Token} {j k : Nat} (hj : Innermost front j)
    (hk : Innermost front k) : k ≤ j := by
  obtain ⟨outer, o, inner, rfl, rfl, -, hinner⟩ := hj
  obtain ⟨outer', o', inner', heq, rfl, ⟨d, ho'⟩, hinner'⟩ := hk
  refine Nat.le_of_not_lt fun hlt ↦ ?_
  -- the later delimiter would be open in what stands behind the earlier one
  rcases List.append_eq_append_iff.mp heq with ⟨as, rfl, h⟩ | ⟨bs, rfl, h⟩
  · cases as with
    | nil => simp at hlt
    | cons a as =>
      rw [List.cons_append, List.cons.injEq] at h
      exact not_balanced_of_opening ho' hinner' (h.2 ▸ hinner)
  · rw [List.length_append] at hlt
    omega

/-- At most one delimiter is the innermost one. -/
theorem Innermost.unique {front : List Token} {j k : Nat} (hj : Innermost front j)
    (hk : Innermost front k) : j = k :=
  Nat.le_antisymm (hk.le hj) (hj.le hk)

/-! ## All delimiters that are open -/

/-- The delimiters that are open behind a token list with the numbers of the tokens that open them,
the innermost first. -/
inductive Layers : List Token → List (Nat × Delimiter) → Prop
  | base {front : List Token} (h : Balanced front) : Layers front []
  | layer {outer inner : List Token} {o : Token} {d : Delimiter} {js : List (Nat × Delimiter)}
      (h : Layers outer js) (ho : o.kind = .opening d) (hinner : Balanced inner) :
      Layers (outer ++ o :: inner) ((outer.length, d) :: js)

namespace Layers

variable {front : List Token} {js : List (Nat × Delimiter)} {t : Token} {d : Delimiter}

/-- What is balanced opens and closes nothing. -/
theorem append (h : Layers front js) {ts : List Token} (hts : Balanced ts) :
    Layers (front ++ ts) js := by
  cases h with
  | base h => exact .base (h.append hts)
  | layer h ho hinner =>
    rw [List.append_assoc, List.cons_append]
    exact .layer h ho (hinner.append hts)

theorem plain (h : Layers front js) (ht : t.kind.isDelimiter = false) : Layers (front ++ [t]) js :=
  h.append (.plain ht .nil)

theorem opening (h : Layers front js) (ht : t.kind = .opening d) :
    Layers (front ++ [t]) ((front.length, d) :: js) :=
  .layer h ht .nil

/-- A delimiter closes the innermost one of its kind. -/
theorem closing {j : Nat} (h : Layers front ((j, d) :: js)) (ht : t.kind = .closing d) :
    Layers (front ++ [t]) js := by
  cases h with
  | layer h ho hinner =>
    rw [List.append_assoc, List.cons_append]
    exact h.append (.pair ho ht hinner .nil)

theorem unclosed_eq (h : Layers front js) : unclosed [] front = some (js.map Prod.snd) := by
  induction h with
  | base h => exact h.unclosed_eq []
  | layer _ ho hinner ih =>
    rw [unclosed_append, ih, Option.bind_some, unclosed_opening ho, hinner.unclosed_eq]
    rfl

/-- **The first of the open delimiters is the innermost one.** -/
theorem innermost_iff (h : Layers front js) (j : Nat) :
    Innermost front j ↔ (js.head?.map Prod.fst) = some j := by
  cases h with
  | base h =>
    refine ⟨fun hj ↦ absurd h (not_balanced_of_innermost hj), fun hj ↦ ?_⟩
    simp at hj
  | @layer outer inner o d js h ho hinner =>
    have hthis : Innermost (outer ++ o :: inner) outer.length :=
      ⟨outer, o, inner, rfl, rfl, ⟨d, ho⟩, hinner⟩
    refine ⟨fun hj ↦ ?_, fun hj ↦ ?_⟩
    · rw [hj.unique hthis]
      rfl
    · rw [← Option.some_inj.mp hj]
      exact hthis

/-- Where delimiters match in the end, a delimiter that is closed is the innermost one. -/
theorem exists_of_closing (h : Layers front js) {rest : List Token}
    (hbalanced : Balanced (front ++ t :: rest)) (ht : t.kind = .closing d) :
    ∃ j outer, js = (j, d) :: outer := by
  have heq := hbalanced.unclosed_eq []
  rw [unclosed_append, h.unclosed_eq, Option.bind_some, unclosed, ht] at heq
  cases js with
  | nil => simp at heq
  | cons j js =>
    by_cases hj : j.2 = d
    · exact ⟨j.1, js, by rw [← hj]⟩
    · simp [hj] at heq

/-- Where delimiters match, none is open in the end. -/
theorem eq_nil (h : Layers front js) (hbalanced : Balanced front) : js = [] := by
  have heq := hbalanced.unclosed_eq []
  rw [h.unclosed_eq] at heq
  exact List.map_eq_nil_iff.mp (Option.some.inj heq)

end Layers

end Concord.Script
