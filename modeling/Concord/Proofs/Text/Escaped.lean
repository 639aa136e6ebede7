import Concord.Text.Literal

/-!
# Where a quoted literal ends

What stands between the quotes of a literal is a row of characters, some of them behind a backslash
(`Escaped`).  `literalBody_eq_iff` says that the body of a literal is found by this rule: it ends at
the first quote that no backslash escapes.
-/

set_option autoImplicit false

namespace Concord

/-! ## Escapes -/

/-- Plain characters, and backslashes with a character behind each of them. -/
inductive Escaped (plain behind : Char → Prop) : List Char → Prop
  | nil : Escaped plain behind []
  | plain {c : Char} {cs : List Char} (hc : plain c) (h : Escaped plain behind cs) :
    Escaped plain behind (c :: cs)
  | pair {c : Char} {cs : List Char} (hc : behind c) (h : Escaped plain behind cs) :
    Escaped plain behind ('\\' :: c :: cs)

theorem Escaped.mono {plain behind behind' : Char → Prop} (hle : ∀ c, behind c → behind' c)
    {cs : List Char} (h : Escaped plain behind cs) : Escaped plain behind' cs := by
  induction h with
  | nil => exact .nil
  | plain hc _ ih => exact .plain hc ih
  | pair hc _ ih => exact .pair (hle _ hc) ih

/-- A character stands for itself in a quoted literal. -/
structure IsPlain (quote : Char) (multiline : Bool) (c : Char) : Prop where
  ne_quote : c ≠ quote
  ne_backslash : c ≠ '\\'
  onLine : c = '\n' → multiline = true

section Literal

variable {quote : Char} {multiline : Bool}

theorem literalBody_quote (cs : List Char) :
    literalBody quote multiline (quote :: cs) = ([], true, cs) := by
  rw [literalBody.eq_def]
  simp

theorem literalBody_plain {c : Char} (hc : IsPlain quote multiline c) (cs : List Char) :
    literalBody quote multiline (c :: cs) =
      (c :: (literalBody quote multiline cs).1, (literalBody quote multiline cs).2) := by
  have hline : ¬ (c = '\n' ∧ (!multiline) = true) := by
    rintro ⟨hbreak, hnot⟩
    simp [hc.onLine hbreak] at hnot
  rw [literalBody.eq_def]
  simp only [if_neg hc.ne_quote, if_neg hc.ne_backslash, if_neg hline]

theorem literalBody_pair (hquote : quote ≠ '\\') {c : Char} (hc : c ≠ '\n') (cs : List Char) :
    literalBody quote multiline ('\\' :: c :: cs) =
      ('\\' :: c :: (literalBody quote multiline cs).1, (literalBody quote multiline cs).2) := by
  rw [literalBody.eq_def]
  simp only [if_neg hquote.symm, if_true, if_neg hc]

theorem escaped_of_literalBody (hquote : quote ≠ '\\') {cs body rest : List Char}
    (h : literalBody quote multiline cs = (body, true, rest)) :
    Escaped (IsPlain quote multiline) (· ≠ '\n') body := by
  induction cs using literalBody.induct quote multiline generalizing body with
  | case1 => simp [literalBody] at h
  | case2 cs =>
    rw [literalBody_quote] at h
    cases h
    exact .nil
  | case3 _ => simp [literalBody, hquote.symm] at h
  | case4 cs _ => simp [literalBody, hquote.symm] at h
  | case5 c cs hc _ _ _ _ _ ih =>
    rw [literalBody_pair hquote hc] at h
    obtain ⟨rfl, hrest⟩ := Prod.mk.inj h
    exact .pair hc (ih (Prod.ext rfl hrest))
  | case6 c cs hne hslash hline =>
    rw [literalBody.eq_def] at h
    simp only [if_neg hne, if_neg hslash, if_pos hline, Prod.mk.injEq] at h
    exact absurd h.2.1 Bool.false_ne_true
  | case7 c cs hne hslash hline _ _ _ _ ih =>
    have hc : IsPlain quote multiline c := ⟨hne, hslash, fun hbreak ↦ by simpa [hbreak] using hline⟩
    rw [literalBody_plain hc] at h
    obtain ⟨rfl, hrest⟩ := Prod.mk.inj h
    exact .plain hc (ih (Prod.ext rfl hrest))

/-- **A quoted literal ends** at the first quote that no backslash escapes.  A backslash in front of
a line break escapes nothing. -/
theorem literalBody_eq_iff (hquote : quote ≠ '\\') {cs body rest : List Char} :
    literalBody quote multiline cs = (body, true, rest) ↔
      Escaped (IsPlain quote multiline) (· ≠ '\n') body ∧ cs = body ++ quote :: rest := by
  constructor
  · intro h
    have happend := literalBody_append quote multiline cs
    rw [h] at happend
    exact ⟨escaped_of_literalBody hquote h, by simpa using happend.symm⟩
  · rintro ⟨hbody, rfl⟩
    induction hbody with
    | nil => exact literalBody_quote rest
    | plain hc _ ih => rw [List.cons_append, literalBody_plain hc, ih]
    | pair hc _ ih => rw [List.cons_append, List.cons_append, literalBody_pair hquote hc, ih]

end Literal

end Concord
