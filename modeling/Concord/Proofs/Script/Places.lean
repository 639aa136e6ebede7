import Concord.Script.Lexing

/-!
# Where the tokens of a script stand

The tokens of a script stand one behind the other, and each of them covers at least one character.
So no two of them share their place (`nodup_span_tokenize`), and a place in a diagnostic tells which
token is meant.  What the source has at the place of a token is its text (`textAt_of_mem_tokenize`);
the text of a string has quotes around it (`quoted_of_mem_tokenize`).
-/

set_option autoImplicit false

namespace Concord.Script

/-! ## Lexemes are not empty -/

theorem text_ne_nil_of_mem_pieces (previous : Option Lexeme) (cs : List Char) :
    ∀ l ∈ pieces previous cs, l.text ≠ [] := by
  fun_induction pieces previous cs with
  | case1 => simp
  | case2 previous c cs ih =>
    intro l hl
    rcases List.mem_cons.mp hl with rfl | hl
    · exact step_text_ne_nil previous c cs
    · exact ih l hl

theorem text_ne_nil_of_mem_joinGarbage {ls : List Lexeme} (h : ∀ l ∈ ls, l.text ≠ []) :
    ∀ l ∈ joinGarbage ls, l.text ≠ [] := by
  induction ls with
  | nil => exact h
  | cons l ls ih =>
    have hl := h l List.mem_cons_self
    have hjoin := ih fun m hm ↦ h m (List.mem_cons_of_mem l hm)
    rw [joinGarbage]
    split
    · simpa using hl
    · rename_i m ms heq
      rw [heq] at hjoin
      have hms : ∀ k ∈ ms, k.text ≠ [] := fun k hk ↦ hjoin k (List.mem_cons_of_mem m hk)
      split
      · refine List.forall_mem_cons.mpr ⟨fun hnil ↦ hl ?_, hms⟩
        exact (List.append_eq_nil_iff.mp hnil).1
      · exact List.forall_mem_cons.mpr ⟨hl, hjoin⟩

/-- Every lexeme has at least one character. -/
theorem text_ne_nil_of_mem_scan {cs : List Char} {l : Lexeme} (hl : l ∈ scan cs) : l.text ≠ [] :=
  text_ne_nil_of_mem_joinGarbage (text_ne_nil_of_mem_pieces none cs) l hl

/-! ## Tokens stand one behind the other -/

theorem le_start_of_mem_placeAll {start : Nat} {ls : List Lexeme} {t : Token}
    (h : t ∈ Token.placeAll start ls) : start ≤ t.span.start := by
  induction ls generalizing start with
  | nil => exact absurd h List.not_mem_nil
  | cons l ls ih =>
    rcases List.mem_cons.mp h with rfl | h
    · exact Nat.le_refl start
    · exact Nat.le_trans (Nat.le_add_right start _) (ih h)

theorem pairwise_placeAll (start : Nat) (ls : List Lexeme) :
    (Token.placeAll start ls).Pairwise fun t u ↦ t.span.stop ≤ u.span.start := by
  induction ls generalizing start with
  | nil => exact .nil
  | cons l ls ih => exact .cons (fun _ ht ↦ le_start_of_mem_placeAll ht) (ih _)

/-- **The tokens of a script stand one behind the other.** -/
theorem pairwise_tokenize (source : String) :
    (tokenize source).Pairwise fun t u ↦ t.span.stop ≤ u.span.start :=
  (pairwise_placeAll 0 _).filter _

theorem mem_scan_of_mem_tokenize {source : String} {t : Token} (h : t ∈ tokenize source) :
    t.toLexeme ∈ scan source.toList := by
  rw [← Token.map_toLexeme_placeAll 0 (scan source.toList)]
  exact List.mem_map_of_mem (List.mem_filter.mp h).1

/-- Every token of a script covers something. -/
theorem start_lt_stop_of_mem_tokenize {source : String} {t : Token} (h : t ∈ tokenize source) :
    t.span.start < t.span.stop :=
  Nat.lt_add_of_pos_right (utf8Length_pos (text_ne_nil_of_mem_scan (mem_scan_of_mem_tokenize h)))

/-- No two tokens of a script stand at the same place. -/
theorem nodup_span_tokenize (source : String) : ((tokenize source).map Token.span).Nodup := by
  refine List.pairwise_map.mpr ((pairwise_tokenize source).imp_of_mem fun ht _ hle heq ↦ ?_)
  have hlt := start_lt_stop_of_mem_tokenize ht
  rw [heq] at hlt hle
  exact absurd hle (Nat.not_le_of_lt hlt)

/-! ## What tokens cover -/

/-- A stretch of a text holds some characters. -/
def TextAt (source : String) (span : Span) (text : List Char) : Prop :=
  ∃ front back, source.toList = front ++ text ++ back ∧
    span = ⟨utf8Length front, utf8Length front + utf8Length text⟩

theorem exists_of_mem_placeAll {start : Nat} {ls : List Lexeme} {t : Token}
    (h : t ∈ Token.placeAll start ls) :
    ∃ before after, ls = before ++ t.toLexeme :: after ∧
      t.start = start + utf8Length (before.flatMap Lexeme.text) := by
  induction ls generalizing start with
  | nil => exact absurd h List.not_mem_nil
  | cons l ls ih =>
    rcases List.mem_cons.mp h with rfl | h
    · exact ⟨[], ls, rfl, rfl⟩
    · obtain ⟨before, after, rfl, hstart⟩ := ih h
      refine ⟨l :: before, after, rfl, ?_⟩
      rw [hstart, List.flatMap_cons, utf8Length_append, Nat.add_assoc]

/-- **The place of a token holds its text.** -/
theorem textAt_of_mem_tokenize {source : String} {t : Token} (h : t ∈ tokenize source) :
    TextAt source t.span t.text := by
  obtain ⟨before, after, hscan, hstart⟩ := exists_of_mem_placeAll (List.mem_filter.mp h).1
  refine ⟨before.flatMap Lexeme.text, after.flatMap Lexeme.text, ?_, ?_⟩
  · rw [← flatMap_text_scan source.toList, hscan, List.flatMap_append, List.flatMap_cons,
      List.append_assoc]
  · rw [Token.span, hstart, Nat.zero_add]

/-! ## Strings have quotes around them -/

/-- A text has a quote in front and the same one at its end. -/
def Quoted (text : List Char) : Prop :=
  ∃ quote body, (quote = '"' ∨ quote = '\x27') ∧ text = quote :: (body ++ [quote])

theorem kind_takeSlash_ne (previous : Option Lexeme) (cs : List Char) :
    (takeSlash previous cs).1.kind ≠ .string := by
  rw [takeSlash]
  repeat' split
  all_goals exact TokenKind.noConfusion

theorem kind_takeSlashed_ne (previous : Option Lexeme) (cs : List Char) :
    (takeSlashed previous cs).1.kind ≠ .string := by
  rw [takeSlashed]
  repeat' split
  all_goals first
    | exact kind_takeSlash_ne previous cs
    | exact TokenKind.noConfusion

theorem quoted_takeLiteral {quote : Char} (hquote : quote = '"' ∨ quote = '\x27') {cs : List Char}
    (h : (takeLiteral .string quote false cs).1.kind = .string) :
    Quoted (takeLiteral .string quote false cs).1.text := by
  rw [takeLiteral] at h ⊢
  split at h
  · exact ⟨quote, _, hquote, rfl⟩
  · contradiction

theorem kind_takeDots_ne (cs : List Char) : (takeDots cs).1.kind ≠ .string := by
  rw [takeDots]
  split <;> exact TokenKind.noConfusion

theorem kind_takeTemplate_ne (cs : List Char) :
    (takeLiteral .template '\x60' true cs).1.kind ≠ .string := by
  rw [takeLiteral]
  split <;> exact TokenKind.noConfusion

theorem kind_takeOperator_ne (c : Char) (cs : List Char) :
    (takeOperator c cs).1.kind ≠ .string := by
  simp only [takeOperator]
  split <;> exact TokenKind.noConfusion

theorem quoted_step (previous : Option Lexeme) (c : Char) (cs : List Char) :
    (step previous c cs).1.kind = .string → Quoted (step previous c cs).1.text := by
  unfold step
  split
  all_goals first
    | exact TokenKind.noConfusion
    | exact fun h ↦ absurd h (kind_takeSlashed_ne _ _)
    | exact fun h ↦ absurd h (kind_takeDots_ne _)
    | exact fun h ↦ absurd h (kind_takeTemplate_ne _)
    | exact quoted_takeLiteral (.inl rfl)
    | exact quoted_takeLiteral (.inr rfl)
    | skip
  repeat' split
  all_goals first
    | exact TokenKind.noConfusion
    | exact fun h ↦ absurd h (kind_takeOperator_ne _ _)

theorem quoted_of_mem_pieces (previous : Option Lexeme) (cs : List Char) :
    ∀ l ∈ pieces previous cs, l.kind = .string → Quoted l.text := by
  fun_induction pieces previous cs with
  | case1 => simp
  | case2 previous c cs ih => exact List.forall_mem_cons.mpr ⟨quoted_step previous c cs, ih⟩

/-- What is no garbage is not joined. -/
theorem mem_of_mem_joinGarbage {ls : List Lexeme} {l : Lexeme} (h : l ∈ joinGarbage ls)
    (hkind : l.kind ≠ .garbage) : l ∈ ls := by
  induction ls with
  | nil => exact h
  | cons m ms ih =>
    rw [joinGarbage] at h
    split at h
    · rw [List.mem_singleton.mp h]
      exact List.mem_cons_self
    · rename_i m' ms' heq
      rw [heq] at ih
      split at h
      · rcases List.mem_cons.mp h with rfl | h
        · exact absurd rfl hkind
        · exact List.mem_cons_of_mem m (ih (List.mem_cons_of_mem m' h))
      · rcases List.mem_cons.mp h with rfl | h
        · exact List.mem_cons_self
        · exact List.mem_cons_of_mem m (ih h)

theorem quoted_of_mem_tokenize {source : String} {t : Token} (h : t ∈ tokenize source)
    (hkind : t.kind = .string) : Quoted t.text := by
  have hmem := mem_of_mem_joinGarbage (mem_scan_of_mem_tokenize h) (by simp [hkind])
  exact quoted_of_mem_pieces none _ _ hmem hkind

end Concord.Script
