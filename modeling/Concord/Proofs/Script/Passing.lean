import Concord.Proofs.Grammar.Names
import Concord.Proofs.Script.Roles

/-!
# Lexemes that the scanner only goes past

Where no key is looked for, names and marks leave the state of the scanner alone, and `$.name`
refers to a rule.  `ScanState.Passes` says of lexemes that all they do is refer to some names, and
the lemmas about it put lexemes together: a symbol, a literal, a call, and arguments with commas
between them.
-/

set_option autoImplicit false

namespace Concord.Script.ScanState

variable {s : ScanState} {before after : List Token} {t : Token}

/-! ## One token -/

/-- A token that is neither a delimiter nor a name changes nothing. -/
theorem step_mark (ht : t.kind.isDelimiter = false) (hkey : t.key? = none) :
    s.step before t after = s := by
  rw [step]
  cases hkind : t.kind <;> simp_all [TokenKind.isDelimiter, Token.key?]

theorem step_opening {d : Delimiter} (ht : t.kind = .opening d) :
    s.step before t after = s.opened d before t := by
  rw [step, ht]

theorem step_closing {d : Delimiter} (ht : t.kind = .closing d) :
    s.step before t after = s.closed d t := by
  rw [step, ht]

/-- The frame on top is closed. -/
theorem closed_top {d : Delimiter} {role : Role} {span : Span} {outer : List Frame}
    (hstack : s.stack = ⟨d, role, span⟩ :: outer) (t : Token) :
    s.closed d t = { s with stack := outer } :=
  closed_eq hstack rfl t

/-- A name may be a key, and it may refer. -/
theorem step_of_key {key : List Char} (hkey : t.key? = some key) :
    s.step before t after =
      ((s.declaration before t after).grammarName before t after).reference t after := by
  rw [step]
  cases hkind : t.kind <;> simp_all [Token.key?]

/-- A name that is not looked for only refers. -/
theorem step_word (hrules : s.topRole = .rules → atMemberStart before = false)
    (hconfig : s.topRole = .config → t.text ≠ "name".toList) {key : List Char}
    (hkey : t.key? = some key) : s.step before t after = s.reference t after := by
  have hdeclaration : s.declaration before t after = s := by
    rw [declaration, if_neg]
    rintro ⟨htop, hstart, -⟩
    rw [hrules htop] at hstart
    contradiction
  have hname : s.grammarName before t after = s := by
    unfold grammarName
    rw [if_neg]
    exact fun h ↦ hconfig h.1 h.2.2.1
  rw [step_of_key hkey, hdeclaration, hname]

/-- Behind the tokens no key is looked for. -/
structure Quiet (s : ScanState) (before : List Token) : Prop where
  callSeen : s.callSeen = true
  not_config : s.topRole ≠ .config
  not_rules : s.topRole = .rules → atMemberStart before = false

theorem Quiet.step_word (h : s.Quiet before) {key : List Char} (hkey : t.key? = some key) :
    s.step before t after = s.reference t after :=
  ScanState.step_word h.not_rules (fun htop ↦ absurd htop h.not_config) hkey

/-- In the call, the innermost open delimiter has a role. -/
structure Within (s : ScanState) (role : Role) : Prop where
  callSeen : s.callSeen = true
  topRole_eq : s.topRole = role

/-- Within plain delimiters no key is looked for. -/
theorem Within.quiet (h : s.Within .plain) (before : List Token) : s.Quiet before where
  callSeen := h.callSeen
  not_config := by simp [h.topRole_eq]
  not_rules := by simp [h.topRole_eq]

/-- In the `rules` object no key is looked for where no member can begin. -/
theorem Within.quiet_of_rules (h : s.Within .rules) (hbefore : atMemberStart before = false) :
    s.Quiet before where
  callSeen := h.callSeen
  not_config := by simp [h.topRole_eq]
  not_rules _ := hbefore

theorem reference_of_text_ne (ht : t.text ≠ ['$']) : s.reference t after = s := by
  unfold reference
  rw [if_neg]
  exact fun h ↦ ht h.2

theorem reference_of_nearest_ne (hafter : nearest? after ≠ some .dot) :
    s.reference t after = s := by
  unfold reference
  split
  · split
    · rw [if_neg]
      rintro ⟨hdot, -⟩
      exact hafter (by rw [← hdot]; rfl)
    · rfl
  · rfl

/-- Refers to rules. -/
def referAll (s : ScanState) (names : List String) : ScanState :=
  { s with grammar := names.foldl Grammar.refer s.grammar }

theorem referAll_referAll (s : ScanState) (names names' : List String) :
    (s.referAll names).referAll names' = s.referAll (names ++ names') := by
  rw [referAll, referAll, referAll, List.foldl_append]

theorem Within.referAll {role : Role} (h : s.Within role) (names : List String) :
    (s.referAll names).Within role :=
  ⟨h.callSeen, h.topRole_eq⟩

/-- Declares a rule. -/
def declareRule (s : ScanState) (r : Rule) : ScanState :=
  { s with grammar := (s.grammar.declare r).1 }

theorem Within.declareRule {role : Role} (h : s.Within role) (r : Rule) :
    (s.declareRule r).Within role :=
  ⟨h.callSeen, h.topRole_eq⟩

theorem run_cons (s : ScanState) (before : List Token) (t : Token) (after : List Token) :
    s.run before (t :: after) = (s.step before t after).run (t :: before) after := rfl

/-- **A key of the `rules` object** declares a rule if its name is new. -/
theorem step_key (hs : s.Within .rules) (hstart : atMemberStart before = true)
    (hafter : nearest? after = some .colon) {name : String} (hnew : name ∉ s.grammar.ruleNames)
    (start : Nat) :
    s.step before ⟨⟨.ident, name.toList⟩, start⟩ after =
      s.declareRule ⟨name, some (Token.span ⟨⟨.ident, name.toList⟩, start⟩)⟩ := by
  have hprevious : s.grammar.rule? name = none := Grammar.rule?_eq_none_iff.mpr hnew
  have hdeclaration : s.declaration before ⟨⟨.ident, name.toList⟩, start⟩ after =
      s.declareRule ⟨name, some (Token.span ⟨⟨.ident, name.toList⟩, start⟩)⟩ := by
    rw [declaration, if_pos ⟨hs.topRole_eq, hstart, .inl hafter⟩]
    simp only [Token.key?, String.ofList_toList, Grammar.declare, hprevious, declareRule]
  rw [step_of_key rfl, reference_of_nearest_ne (by simp [hafter]), hdeclaration]
  unfold grammarName
  rw [if_neg]
  rintro ⟨hconfig, -⟩
  exact absurd (hs.topRole_eq.symm.trans hconfig) (by decide)

/-- **The key `name`** of the configuration names the grammar. -/
theorem step_name (htop : s.topRole = .config) (hstart : atMemberStart before = true)
    {i j k : Nat} {text : List Char} :
    s.step before ⟨⟨.ident, "name".toList⟩, i⟩
        (⟨⟨.colon, [':']⟩, j⟩ :: ⟨⟨.string, text⟩, k⟩ :: after) =
      { s with grammar :=
        { s.grammar with name := some (String.ofList (text.drop 1).dropLast) } } := by
  have hdeclaration : s.declaration before ⟨⟨.ident, "name".toList⟩, i⟩
      (⟨⟨.colon, [':']⟩, j⟩ :: ⟨⟨.string, text⟩, k⟩ :: after) = s := by
    rw [declaration, if_neg]
    rintro ⟨hrules, -⟩
    exact absurd (htop.symm.trans hrules) (by decide)
  rw [step_of_key rfl, reference_of_nearest_ne (by simp [nearest?]), hdeclaration]
  unfold grammarName
  rw [if_pos ⟨htop, rfl, rfl, hstart⟩]
  simp [Token.key?]

/-! ## Many tokens -/

/-- The scanner goes past the lexemes and does nothing but refer to the names. -/
structure Passes (Allowed : ScanState → List Token → Prop) (ls : List Lexeme)
    (names : List String) : Prop where
  run_eq : ∀ {s before toks after}, Allowed s before → toks.map Token.toLexeme = ls →
    nearest? after ≠ some .dot →
      s.run before (toks ++ after) = (s.referAll names).run (toks.reverse ++ before) after

/-- They are passed within plain delimiters. -/
abbrev PassesWithin (ls : List Lexeme) (names : List String) : Prop :=
  Passes (fun s _ ↦ s.Within .plain) ls names

/-- The first of the tokens of lexemes. -/
theorem exists_of_map_eq_cons {toks : List Token} {l : Lexeme} {ls : List Lexeme}
    (h : toks.map Token.toLexeme = l :: ls) :
    ∃ start toks', toks = ⟨l, start⟩ :: toks' ∧ toks'.map Token.toLexeme = ls := by
  obtain ⟨t, toks', rfl, rfl, htoks'⟩ := List.map_eq_cons_iff.mp h
  exact ⟨t.start, toks', rfl, htoks'⟩

theorem exists_of_map_eq_singleton {toks : List Token} {l : Lexeme}
    (h : toks.map Token.toLexeme = [l]) : ∃ start, toks = [⟨l, start⟩] := by
  obtain ⟨start, toks', rfl, htoks'⟩ := exists_of_map_eq_cons h
  obtain rfl := List.map_eq_nil_iff.mp htoks'
  exact ⟨start, rfl⟩

theorem passes_symbol (name : String) :
    Passes Quiet [⟨.ident, ['$']⟩, ⟨.dot, ['.']⟩, ⟨.ident, name.toList⟩] [name] := by
  constructor
  intro s before toks after hs htoks hafter
  obtain ⟨i, toks₁, rfl, htoks₁⟩ := exists_of_map_eq_cons htoks
  obtain ⟨j, toks₂, rfl, htoks₂⟩ := exists_of_map_eq_cons htoks₁
  obtain ⟨k, rfl⟩ := exists_of_map_eq_singleton htoks₂
  have hquiet : (s.referAll [name]).Quiet
      (⟨⟨.dot, ['.']⟩, j⟩ :: ⟨⟨.ident, ['$']⟩, i⟩ :: before) :=
    ⟨hs.callSeen, hs.not_config, fun _ ↦ rfl⟩
  calc s.run before (_ :: _ :: _ :: after)
    _ = (s.referAll [name]).run (⟨⟨.dot, ['.']⟩, j⟩ :: ⟨⟨.ident, ['$']⟩, i⟩ :: before)
          (⟨⟨.ident, name.toList⟩, k⟩ :: after) := by
      have hreference : s.reference ⟨⟨.ident, ['$']⟩, i⟩
          (⟨⟨.dot, ['.']⟩, j⟩ :: ⟨⟨.ident, name.toList⟩, k⟩ :: after) = s.referAll [name] := by
        simp [reference, referAll]
      rw [run_cons, hs.step_word rfl, hreference, run_cons, step_mark rfl rfl]
    _ = _ := by
      rw [run_cons, hquiet.step_word rfl, reference_of_nearest_ne hafter]
      rfl

theorem passes_literal {text : List Char} (htext : text ≠ ['$']) :
    Passes Quiet [⟨.string, text⟩] [] := by
  constructor
  intro s before toks after hs htoks hafter
  obtain ⟨i, rfl⟩ := exists_of_map_eq_singleton htoks
  rw [List.singleton_append, run_cons, hs.step_word rfl, reference_of_text_ne htext]
  rfl

/-- **A call** is passed if its arguments are. -/
theorem passes_call {function : List Char} (hfunction : function ≠ ['$']) {ls : List Lexeme}
    {names : List String} (h : PassesWithin ls names) :
    Passes Quiet (⟨.ident, function⟩ :: ⟨.opening .paren, ['(']⟩ ::
      (ls ++ [⟨.closing .paren, [')']⟩])) names := by
  constructor
  intro s before toks after hs htoks hafter
  obtain ⟨i, toks₁, rfl, htoks₁⟩ := exists_of_map_eq_cons htoks
  obtain ⟨j, toks₂, rfl, htoks₂⟩ := exists_of_map_eq_cons htoks₁
  obtain ⟨args, toks₃, rfl, hargs, htoks₃⟩ := List.map_eq_append_iff.mp htoks₂
  obtain ⟨k, rfl⟩ := exists_of_map_eq_singleton htoks₃
  have hpush : s.opened .paren (⟨⟨.ident, function⟩, i⟩ :: before) ⟨⟨.opening .paren, ['(']⟩, j⟩ =
      s.push .paren .plain (Token.span ⟨⟨.opening .paren, ['(']⟩, j⟩) := by
    rw [opened, if_neg]
    simp [hs.callSeen]
  have hplain : (s.push .paren .plain (Token.span ⟨⟨.opening .paren, ['(']⟩, j⟩)).Within .plain :=
    ⟨hs.callSeen, rfl⟩
  have hclosed : ((s.push .paren .plain (Token.span ⟨⟨.opening .paren, ['(']⟩, j⟩)).referAll
      names).closed .paren ⟨⟨.closing .paren, [')']⟩, k⟩ = s.referAll names :=
    closed_top rfl _
  rw [List.cons_append, run_cons, hs.step_word rfl, reference_of_text_ne hfunction,
    List.cons_append, run_cons, step_opening rfl, hpush, List.append_assoc,
    h.run_eq hplain hargs (by simp [nearest?]), List.singleton_append, run_cons, step_closing rfl,
    hclosed]
  simp

section Arguments

variable {ls ms : List Lexeme} {names names' : List String}

/-- Within plain delimiters, lexemes are passed one after the other. -/
theorem Passes.append (h : PassesWithin ls names)
    (h' : PassesWithin ms names') (hdot : ∀ l ∈ ms.head?, l.kind ≠ .dot) :
    PassesWithin (ls ++ ms) (names ++ names') := by
  constructor
  intro s before toks after hs htoks hafter
  obtain ⟨toks₁, toks₂, rfl, htoks₁, htoks₂⟩ := List.map_eq_append_iff.mp htoks
  have hnearest : nearest? (toks₂ ++ after) ≠ some .dot := by
    cases toks₂ with
    | nil => exact hafter
    | cons t toks₂ =>
      rw [← htoks₂] at hdot
      simpa [nearest?] using hdot
  rw [List.append_assoc, h.run_eq hs htoks₁ hnearest, h'.run_eq (hs.referAll names) htoks₂ hafter,
    referAll_referAll, List.reverse_append, List.append_assoc]

theorem passes_nil : PassesWithin [] [] := by
  constructor
  intro s before toks after hs htoks hafter
  rw [List.map_eq_nil_iff] at htoks
  rw [htoks]
  rfl

theorem passes_mark {l : Lexeme} (hl : l.kind.isDelimiter = false)
    (hkey : ∀ start, Token.key? ⟨l, start⟩ = none) : PassesWithin [l] [] := by
  constructor
  intro s before toks after hs htoks hafter
  obtain ⟨i, rfl⟩ := exists_of_map_eq_singleton htoks
  rw [List.singleton_append, run_cons, step_mark hl (hkey i)]
  rfl

theorem Passes.within (h : Passes Quiet ls names) : PassesWithin ls names :=
  ⟨fun hs ↦ h.run_eq (hs.quiet _)⟩

/-- **Arguments** are passed with a comma between them. -/
theorem Passes.arguments (h : PassesWithin ls names)
    (h' : PassesWithin ms names') (hdot : ∀ l ∈ ms.head?, l.kind ≠ .dot) :
    PassesWithin (ls ++ ⟨.comma, [',']⟩ :: ms) (names ++ names') :=
  have hcomma : PassesWithin [⟨.comma, [',']⟩] [] := passes_mark rfl fun _ ↦ rfl
  h.append (hcomma.append h' hdot) (by simp)

end Arguments

end Concord.Script.ScanState
