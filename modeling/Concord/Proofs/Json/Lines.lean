import Concord.Proofs.Json.Assembly

/-!
# JSON over several lines

A value that is printed over several lines is written from the same lexemes as on one line, with
line breaks and indentation between them.  So it is read back as the same value.

* `Value.writes_pretty` — its lexemes are written with blanks between them.
* `Document.holds_pretty` — the text holds the value.
* `Document.Holds.read` — any text that holds a value is read as it.
-/

set_option autoImplicit false

namespace Concord.Json

namespace Value

section Printer

variable {ls : List Lexeme} {rest : List Char}

/-- A line break and an indentation may stand in front of lexemes. -/
theorem writes_newline (level : Nat) (h : spelling.Writes ls rest) :
    spelling.Writes ls ((newline level).toList ++ rest) := by
  have hblanks (n : Nat) : spelling.Writes ls (List.replicate n ' ' ++ rest) := by
    induction n with
    | zero => exact h
    | succ n ih => exact .blank rfl ih
  have htext : (newline level).toList ++ rest =
      '\n' :: (List.replicate (2 * level) ' ' ++ rest) := by
    simp [newline]
  rw [htext]
  exact .blank rfl (hblanks (2 * level))

/-- No number goes on with a line break. -/
theorem continuesNumber_newline (level : Nat) :
    ∀ c ∈ ((newline level).toList ++ rest).head?, continuesNumber c = false := by
  simp [newline, continuesNumber]

end Printer

mutual

/-- **A value is printed as it is written**, here over several lines. -/
theorem writes_pretty : ∀ (v : Value) (level : Nat) {ls : List Lexeme} {rest : List Char},
    spelling.Writes ls rest → (∀ c ∈ rest.head?, continuesNumber c = false) →
      spelling.Writes (v.lexemes ++ ls) ((v.pretty level).toList ++ rest)
  | .null, level, _, _, h, hrest => by
    have hline : pretty level .null = compact .null := by rw [pretty, compact]
    rw [hline]
    exact writes_compact .null h hrest
  | .bool b, level, _, _, h, hrest => by
    have hline : pretty level (.bool b) = compact (.bool b) := by
      cases b <;> rw [pretty, compact]
    rw [hline]
    exact writes_compact (.bool b) h hrest
  | .number n, level, _, _, h, hrest => by
    have hline : pretty level (.number n) = compact (.number n) := by rw [pretty, compact]
    rw [hline]
    exact writes_compact (.number n) h hrest
  | .string s, level, _, _, h, hrest => by
    have hline : pretty level (.string s) = compact (.string s) := by rw [pretty, compact]
    rw [hline]
    exact writes_compact (.string s) h hrest
  | .list [], level, _, _, h, hrest => by
    have hline : pretty level (.list []) = compact (.list []) := by
      simp [pretty, compact, compactItems]
    rw [hline]
    exact writes_compact (.list []) h hrest
  | .list (v :: vs), level, ls, rest, h, _ => by
    have htext : (pretty level (.list (v :: vs))).toList ++ rest =
        '[' :: ((prettyItems (level + 1) (v :: vs)).toList ++
          ((newline level).toList ++ (']' :: rest))) := by
      simp [pretty]
    have hend : spelling.Writes (.listEnd :: ls) (']' :: rest) := writes_mark rfl (fun _ ↦ rfl) h
    rw [htext, lexemes, List.cons_append, List.append_assoc]
    exact writes_mark rfl (fun _ ↦ rfl) (writes_prettyItems (v :: vs) (level + 1)
      (writes_newline level hend) (continuesNumber_newline level))
  | .object [], level, _, _, h, hrest => by
    have hline : pretty level (.object []) = compact (.object []) := by
      simp [pretty, compact, compactMembers]
    rw [hline]
    exact writes_compact (.object []) h hrest
  | .object (m :: ms), level, ls, rest, h, _ => by
    have htext : (pretty level (.object (m :: ms))).toList ++ rest =
        '\x7b' :: ((prettyMembers (level + 1) (m :: ms)).toList ++
          ((newline level).toList ++ ('\x7d' :: rest))) := by
      simp [pretty]
    have hend : spelling.Writes (.objectEnd :: ls) ('\x7d' :: rest) :=
      writes_mark rfl (fun _ ↦ rfl) h
    rw [htext, lexemes, List.cons_append, List.append_assoc]
    exact writes_mark rfl (fun _ ↦ rfl) (writes_prettyMembers (m :: ms) (level + 1)
      (writes_newline level hend) (continuesNumber_newline level))

theorem writes_prettyItems : ∀ (vs : List Value) (level : Nat) {ls : List Lexeme}
    {rest : List Char}, spelling.Writes ls rest → (∀ c ∈ rest.head?, continuesNumber c = false) →
      spelling.Writes (itemLexemes vs ++ ls) ((prettyItems level vs).toList ++ rest)
  | [], _, _, _, h, _ => by
    simpa [itemLexemes, prettyItems] using h
  | [v], level, ls, rest, h, hrest => by
    have htext : (prettyItems level [v]).toList ++ rest =
        (newline level).toList ++ ((v.pretty level).toList ++ rest) := by
      simp [prettyItems]
    rw [htext, itemLexemes]
    exact writes_newline level (writes_pretty v level h hrest)
  | v :: w :: vs, level, ls, rest, h, hrest => by
    have htext : (prettyItems level (v :: w :: vs)).toList ++ rest =
        (newline level).toList ++ ((v.pretty level).toList ++
          (',' :: ((prettyItems level (w :: vs)).toList ++ rest))) := by
      simp [prettyItems]
    have hcomma :=
      writes_mark (l := .comma) rfl (fun _ ↦ rfl) (writes_prettyItems (w :: vs) level h hrest)
    rw [htext, itemLexemes, List.append_assoc, List.cons_append]
    exact writes_newline level (writes_pretty v level hcomma (by simp [continuesNumber]))

theorem writes_prettyMembers : ∀ (es : List (String × Value)) (level : Nat) {ls : List Lexeme}
    {rest : List Char}, spelling.Writes ls rest → (∀ c ∈ rest.head?, continuesNumber c = false) →
      spelling.Writes (memberLexemes es ++ ls) ((prettyMembers level es).toList ++ rest)
  | [], _, _, _, h, _ => by
    simpa [memberLexemes, prettyMembers] using h
  | [(k, v)], level, ls, rest, h, hrest => by
    have htext : (prettyMembers level [(k, v)]).toList ++ rest =
        (newline level).toList ++ ((writeString k).toList ++
          ':' :: ' ' :: ((v.pretty level).toList ++ rest)) := by
      simp [prettyMembers]
    rw [htext, memberLexemes]
    exact writes_newline level (writes_key (.blank rfl (writes_pretty v level h hrest)))
  | (k, v) :: e :: es, level, ls, rest, h, hrest => by
    have htext : (prettyMembers level ((k, v) :: e :: es)).toList ++ rest =
        (newline level).toList ++ ((writeString k).toList ++
          ':' :: ' ' :: ((v.pretty level).toList ++
            (',' :: ((prettyMembers level (e :: es)).toList ++ rest)))) := by
      simp [prettyMembers]
    have hcomma :=
      writes_mark (l := .comma) rfl (fun _ ↦ rfl) (writes_prettyMembers (e :: es) level h hrest)
    rw [htext, memberLexemes, List.cons_append, List.cons_append, List.append_assoc,
      List.cons_append]
    exact writes_newline level
      (writes_key (.blank rfl (writes_pretty v level hcomma (by simp [continuesNumber]))))

end

end Value

/-- What is printed of a value over several lines holds it. -/
theorem Document.holds_pretty {tree : Value} (h : tree.isExact = true) (level : Nat) :
    (Document.read (tree.pretty level)).Holds tree := by
  have hwrites : spelling.Writes tree.lexemes (tree.pretty level).toList := by
    simpa using Value.writes_pretty tree level .nil (by simp)
  obtain ⟨n, hn, hread⟩ := Document.read_of_writes hwrites h
  rw [hread]
  exact ⟨hn, rfl⟩

section Holds

variable {source : String} {tree : Value}

/-- **A text that holds a value is read as it**, with the members sorted. -/
theorem Document.Holds.read (h : (Document.read source).Holds tree)
    (hdepth : tree.depth ≤ deepest) : Value.read source = .ok tree.sorted := by
  rw [Value.read, decode, Node.value_of_ordered h.root hdepth, h.trailing]
  rfl

/-- It is turned down if lists and objects lie in too many others. -/
theorem Document.Holds.read_of_depth_lt (h : (Document.read source).Holds tree)
    (hdepth : deepest < tree.depth) : ∃ stop, Value.read source = .error ⟨.tooDeep, stop⟩ := by
  obtain ⟨stop, hstop⟩ := Node.value_of_depth_lt h.root hdepth
  exact ⟨stop, by rw [Value.read, decode, hstop]; rfl⟩

end Holds

end Concord.Json
