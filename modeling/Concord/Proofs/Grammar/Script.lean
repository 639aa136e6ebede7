import Concord.Proofs.Grammar.Abstract
import Concord.Proofs.Grammar.Names
import Concord.Proofs.Script.Passing

/-!
# What a grammar script is scanned as

The scanner goes past a body that is written in a script and does nothing but refer to its symbols
(`RuleBody.passes_lexemes`), and past the members of a `rules` object it declares the rules too
(`AbstractGrammar.run_rules`).  So a grammar that is written as a script is found, with its own
name, rules and symbols, and nothing is wrong with the script
(`AbstractGrammar.scanScript_of_writes`).
-/

set_option autoImplicit false

namespace Concord

open Script (Frame Lexeme Token ScanState atMemberStart nearest? quote tokenize_of_writes)
open Script.ScanState

/-! ## Bodies -/

theorem quote_ne (text : List Char) : quote text ≠ ['$'] := by
  simp [quote]

theorem Precedence.passes_lexemes (level : Precedence) : PassesWithin level.lexemes [] := by
  have hdigits (k : Nat) : PassesWithin [⟨.number, Nat.toDigits 10 k⟩] [] :=
    passes_mark rfl fun _ ↦ rfl
  have hminus : PassesWithin [⟨.operator, ['-']⟩] [] := passes_mark rfl fun _ ↦ rfl
  cases level with
  | number n =>
    rw [lexemes]
    cases n.toInt with
    | ofNat k => exact hdigits k
    | negSucc k => exact hminus.append (hdigits (k + 1)) (by simp)
  | name text => exact (passes_literal (quote_ne text.toList)).within

namespace RuleBody

/-- No body begins with a dot. -/
theorem head_lexemes (b : RuleBody) : ∀ l ∈ b.lexemes.head?, l.kind ≠ .dot := by
  cases b <;> simp [lexemes, call]

theorem head_lexemesOfParts (bs : List RuleBody) :
    ∀ l ∈ (lexemesOfParts bs).head?, l.kind ≠ .dot := by
  cases bs with
  | nil => simp [lexemesOfParts]
  | cons b bs =>
    have hb := b.head_lexemes
    cases bs with
    | nil => rwa [lexemesOfParts]
    | cons c bs =>
      rw [lexemesOfParts]
      cases hlexemes : b.lexemes with
      | nil => simp
      | cons l ls => simpa [hlexemes] using hb

mutual

/-- **A body** is passed, and its symbols are referred to. -/
theorem passes_lexemes : ∀ b : RuleBody, Passes Quiet b.lexemes b.symbols
  | .symbol rule => by
    rw [lexemes, symbols]
    exact passes_symbol rule.text
  | .literal text => by
    rw [lexemes, symbols]
    exact passes_literal (quote_ne text.toList)
  | .seq parts | .choice parts => passes_call (by decide) (passes_lexemesOfParts parts)
  | .repetition part => passes_call (by decide) (passes_lexemes part).within
  | .field name part =>
    passes_call (by decide) <|
      (passes_literal (quote_ne name.toList)).within.arguments (passes_lexemes part).within
        part.head_lexemes
  | .prec level part =>
    passes_call (by decide) <|
      level.passes_lexemes.arguments (passes_lexemes part).within part.head_lexemes

theorem passes_lexemesOfParts : ∀ bs : List RuleBody,
    PassesWithin (lexemesOfParts bs) (symbolsOfParts bs)
  | [] => by
    rw [lexemesOfParts, symbolsOfParts]
    exact passes_nil
  | [b] => by
    rw [lexemesOfParts, symbolsOfParts, symbolsOfParts, List.append_nil]
    exact (passes_lexemes b).within
  | b :: c :: bs => by
    rw [lexemesOfParts, symbolsOfParts]
    exact (passes_lexemes b).within.arguments (passes_lexemesOfParts (c :: bs))
      (head_lexemesOfParts (c :: bs))

end

end RuleBody

/-! ## Rules -/

namespace AbstractGrammar

variable {s : ScanState} {before toks after : List Token}

/-- Behind the name of a rule nothing but the symbols of its body is of interest. -/
theorem run_function (hs : s.Within .rules) {b : RuleBody}
    (htoks : toks.map Token.toLexeme =
      ⟨.colon, [':']⟩ :: ⟨.ident, ['$']⟩ :: ⟨.arrow, ['=', '>']⟩ :: b.lexemes)
    (hafter : nearest? after ≠ some .dot) :
    s.run before (toks ++ after) = (s.referAll b.symbols).run (toks.reverse ++ before) after := by
  obtain ⟨i, toks₁, rfl, htoks₁⟩ := exists_of_map_eq_cons htoks
  obtain ⟨j, toks₂, rfl, htoks₂⟩ := exists_of_map_eq_cons htoks₁
  obtain ⟨k, body, rfl, hbody⟩ := exists_of_map_eq_cons htoks₂
  calc s.run before (_ :: _ :: _ :: (body ++ after))
    _ = s.run (_ :: _ :: _ :: before) (body ++ after) := by
      rw [run_cons, step_mark rfl rfl, run_cons, (hs.quiet_of_rules rfl).step_word rfl,
        reference_of_nearest_ne (by simp [nearest?]), run_cons, step_mark rfl rfl]
    _ = _ := by
      rw [b.passes_lexemes.run_eq (hs.quiet_of_rules rfl) hbody hafter]
      simp

/-- **A rule** is declared, and its symbols are referred to. -/
theorem run_rule (hs : s.Within .rules) (hstart : atMemberStart before = true)
    {r : Identifier × RuleBody} (hnew : r.1.text ∉ s.grammar.ruleNames)
    (htoks : toks.map Token.toLexeme = rule r) (hafter : nearest? after ≠ some .dot) :
    ∃ span, s.run before (toks ++ after) =
      ((s.declareRule ⟨r.1.text, span⟩).referAll r.2.symbols).run (toks.reverse ++ before)
        after := by
  obtain ⟨i, body, rfl, hbody⟩ := exists_of_map_eq_cons htoks
  have hcolon : nearest? (body ++ after) = some .colon := by
    obtain ⟨j, body, rfl, -⟩ := exists_of_map_eq_cons hbody
    rfl
  refine ⟨some (Token.span ⟨⟨.ident, r.1.text.toList⟩, i⟩), ?_⟩
  rw [List.cons_append, run_cons, step_key hs hstart hcolon hnew,
    run_function (hs.declareRule _) hbody hafter]
  simp

/-- **The members of a `rules` object** are declared in their order. -/
theorem run_rules {name : Option String} {declared used : List String}
    {rules : List (Identifier × RuleBody)} (hs : s.Within .rules)
    (hstart : atMemberStart before = true)
    (hnodup : (declared ++ rules.map fun r ↦ r.1.text).Nodup)
    (hlists : s.grammar.Lists name declared used)
    (htoks : toks.map Token.toLexeme = ruleLexemes rules) (hafter : nearest? after ≠ some .dot) :
    ∃ G : Grammar, G.Lists name (declared ++ rules.map fun r ↦ r.1.text)
        (used ++ rules.flatMap fun r ↦ r.2.symbols) ∧
      s.run before (toks ++ after) =
        run { s with grammar := G } (toks.reverse ++ before) after := by
  induction rules generalizing s before toks declared used with
  | nil =>
    obtain rfl := List.map_eq_nil_iff.mp htoks
    exact ⟨s.grammar, by simpa using hlists, rfl⟩
  | cons r rs ih =>
    have hnew : r.1.text ∉ s.grammar.ruleNames := by
      rw [hlists.ruleNames_eq, List.mem_eraseDups]
      exact fun hmem ↦ (List.nodup_append.mp hnodup).2.2 _ hmem _ List.mem_cons_self rfl
    have hnext (span : Option Span) := (hlists.declare ⟨r.1.text, span⟩).foldl_refer r.2.symbols
    cases rs with
    | nil =>
      obtain ⟨span, hrun⟩ := run_rule hs hstart hnew htoks hafter
      exact ⟨_, by simpa [declareRule] using hnext span, hrun⟩
    | cons r' rs =>
      obtain ⟨toks₁, toks', rfl, htoks₁, htoks'⟩ := List.map_eq_append_iff.mp htoks
      obtain ⟨i, toks₂, rfl, htoks₂⟩ := exists_of_map_eq_cons htoks'
      have hcomma : nearest? (⟨⟨.comma, [',']⟩, i⟩ :: (toks₂ ++ after)) ≠ some .dot := by
        simp [nearest?]
      obtain ⟨span, hrun⟩ := run_rule hs hstart hnew htoks₁ hcomma
      have hs' := (hs.declareRule ⟨r.1.text, span⟩).referAll r.2.symbols
      have hstart' : atMemberStart (⟨⟨.comma, [',']⟩, i⟩ :: (toks₁.reverse ++ before)) = true := rfl
      obtain ⟨G, hG, hrest⟩ := ih hs' hstart' (by simpa using hnodup) (hnext span) htoks₂
      refine ⟨G, by simpa using hG, ?_⟩
      rw [List.append_assoc, List.cons_append, hrun, run_cons, step_mark rfl rfl, hrest]
      simp [referAll, declareRule]

/-! ## Scripts -/

/-- The scanner is in the call of `grammar`. -/
def inCall (call : Frame) : ScanState where
  mode := .call
  stack := [call]
  callSeen := true

/-- The scanner is in the configuration, behind its name. -/
def inConfig (name : String) (config call : Frame) : ScanState where
  mode := .call
  stack := [config, call]
  grammar := { name := some name }
  callSeen := true
  configSeen := true

/-- The scanner is in the `rules` object. -/
def inRules (name : String) (rules config call : Frame) : ScanState where
  mode := .call
  stack := [rules, config, call]
  grammar := { name := some name }
  callSeen := true
  configSeen := true
  rulesSeen := true

/-- The scanner is behind the call. -/
def behindCall (G : Grammar) : ScanState where
  mode := .call
  grammar := G
  callSeen := true
  configSeen := true
  rulesSeen := true

/-- The call is found. -/
theorem run_calling (after : List Token) (htoks : toks.map Token.toLexeme = calling) :
    ∃ span, run { mode := .call } [] (toks ++ after) =
      (inCall ⟨.paren, .call, span⟩).run toks.reverse after := by
  obtain ⟨i₁, toks₁, rfl, htoks₁⟩ := exists_of_map_eq_cons htoks
  obtain ⟨i₂, toks₂, rfl, htoks₂⟩ := exists_of_map_eq_cons htoks₁
  obtain ⟨i₃, toks₃, rfl, htoks₃⟩ := exists_of_map_eq_cons htoks₂
  obtain ⟨i₄, toks₄, rfl, htoks₄⟩ := exists_of_map_eq_cons htoks₃
  obtain ⟨i₅, toks₅, rfl, htoks₅⟩ := exists_of_map_eq_cons htoks₄
  obtain ⟨i₆, rfl⟩ := exists_of_map_eq_singleton htoks₅
  have hword {before after : List Token} {word : String} {i : Nat} (hword : word.toList ≠ ['$']) :
      step { mode := .call } before ⟨⟨.ident, word.toList⟩, i⟩ after = { mode := .call } := by
    rw [step_word (by simp [ScanState.topRole]) (by simp [ScanState.topRole]) rfl,
      reference_of_text_ne hword]
  have hrole {before : List Token} : openingRole { mode := .call } .paren
      (⟨⟨.ident, "grammar".toList⟩, i₅⟩ :: before) = .call := by
    rw [openingRole_eq_call_iff]
    simp [Script.followsName]
  refine ⟨Token.span ⟨⟨.opening .paren, ['(']⟩, i₆⟩, ?_⟩
  show run _ [] (_ :: _ :: _ :: _ :: _ :: _ :: after) = _
  rw [run_cons, hword (by decide), run_cons, step_mark rfl rfl, run_cons, hword (by decide),
    run_cons, step_mark rfl rfl, run_cons, hword (by decide), run_cons, step_opening rfl,
    opened_eq, hrole]
  rfl

/-- A name stands between quotes as it is. -/
theorem key_quote (name : Identifier) :
    String.ofList ((quote name.text.toList).drop 1).dropLast = name.text := by
  have hescape {c : Char} (hc : Script.isIdentPart c = true) : Script.escapeChar c = [c] := by
    unfold Script.escapeChar
    split
    case h_5 => rfl
    all_goals exact absurd hc (by decide)
  have hflat : name.text.toList.flatMap Script.escapeChar = name.text.toList := by
    have hparts := isIdentPart_of_mem name.isIdentifier
    generalize name.text.toList = cs at hparts
    induction cs with
    | nil => rfl
    | cons c cs ih =>
      obtain ⟨hc, hcs⟩ := List.forall_mem_cons.mp hparts
      rw [List.flatMap_cons, hescape hc, ih hcs, List.singleton_append]
  rw [quote, hflat]
  simp

/-- The configuration is found, and its name. -/
theorem run_naming {g : AbstractGrammar} (before after : List Token) {call : Frame}
    (hcall : call.role = .call) (htoks : toks.map Token.toLexeme = g.naming) :
    ∃ span, (inCall call).run before (toks ++ after) =
      (inConfig g.name.text ⟨.brace, .config, span⟩ call).run (toks.reverse ++ before) after ∧
        atMemberStart (toks.reverse ++ before) = true := by
  obtain ⟨i₁, toks₁, rfl, htoks₁⟩ := exists_of_map_eq_cons htoks
  obtain ⟨i₂, toks₂, rfl, htoks₂⟩ := exists_of_map_eq_cons htoks₁
  obtain ⟨i₃, toks₃, rfl, htoks₃⟩ := exists_of_map_eq_cons htoks₂
  obtain ⟨i₄, toks₄, rfl, htoks₄⟩ := exists_of_map_eq_cons htoks₃
  obtain ⟨i₅, rfl⟩ := exists_of_map_eq_singleton htoks₄
  have hrole : (inCall call).openingRole .brace before = .config := by
    rw [openingRole_eq_config_iff]
    exact ⟨⟨rfl, hcall⟩, by simp [inCall]⟩
  refine ⟨Token.span ⟨⟨.opening .brace, ['\x7b']⟩, i₁⟩, ?_, rfl⟩
  have hquote {before after : List Token} :
      (inConfig g.name.text ⟨.brace, .config, Token.span ⟨⟨.opening .brace, ['\x7b']⟩, i₁⟩⟩
        call).step before ⟨⟨.string, quote g.name.text.toList⟩, i₄⟩ after = _ :=
    (step_word (fun htop ↦ absurd htop (by simp [inConfig, ScanState.topRole]))
      (fun _ ↦ by simp [quote]) rfl).trans (reference_of_text_ne (quote_ne _))
  show run _ before (_ :: _ :: _ :: _ :: _ :: after) = _
  rw [run_cons, step_opening rfl, opened_eq, hrole, run_cons, step_name rfl rfl, key_quote]
  show (inConfig _ _ _).run _ _ = _
  rw [run_cons, step_mark rfl rfl, run_cons, hquote, run_cons, step_mark rfl rfl]
  rfl

/-- The `rules` object is found. -/
theorem run_listing (name : String) (call : Frame) {config : Frame}
    (hconfig : config.role = .config) (hbefore : atMemberStart before = true)
    (after : List Token) (htoks : toks.map Token.toLexeme = listing) :
    ∃ span, (inConfig name config call).run before (toks ++ after) =
      (inRules name ⟨.brace, .rules, span⟩ config call).run (toks.reverse ++ before) after ∧
        atMemberStart (toks.reverse ++ before) = true := by
  obtain ⟨i₁, toks₁, rfl, htoks₁⟩ := exists_of_map_eq_cons htoks
  obtain ⟨i₂, toks₂, rfl, htoks₂⟩ := exists_of_map_eq_cons htoks₁
  obtain ⟨i₃, rfl⟩ := exists_of_map_eq_singleton htoks₂
  have htop : (inConfig name config call).topRole = .config := hconfig
  have hword {after : List Token} :
      (inConfig name config call).step before ⟨⟨.ident, "rules".toList⟩, i₁⟩ after =
        inConfig name config call := by
    rw [step_word (by simp [htop]) (by simp) rfl, reference_of_text_ne (by simp)]
  have hrole : (inConfig name config call).openingRole .brace
      (⟨⟨.colon, [':']⟩, i₂⟩ :: ⟨⟨.ident, "rules".toList⟩, i₁⟩ :: before) = .rules := by
    rw [openingRole_eq_rules_iff]
    refine ⟨⟨?_, fun _ ↦ htop⟩, by simp [inConfig]⟩
    simp [Script.followsKey, Token.key?, hbefore]
  refine ⟨Token.span ⟨⟨.opening .brace, ['\x7b']⟩, i₃⟩, ?_, rfl⟩
  show run _ before (_ :: _ :: _ :: after) = _
  rw [run_cons, hword, run_cons, step_mark rfl rfl, run_cons, step_opening rfl, opened_eq, hrole]
  rfl

/-- All that is open is closed. -/
theorem run_back {i j k : Span}
    (hstack : s.stack = [⟨.brace, .rules, i⟩, ⟨.brace, .config, j⟩, ⟨.paren, .call, k⟩])
    (htoks : toks.map Token.toLexeme = back) : s.run before toks = { s with stack := [] } := by
  obtain ⟨i₁, toks₁, rfl, htoks₁⟩ := exists_of_map_eq_cons htoks
  obtain ⟨i₂, toks₂, rfl, htoks₂⟩ := exists_of_map_eq_cons htoks₁
  obtain ⟨i₃, rfl⟩ := exists_of_map_eq_singleton htoks₂
  rw [run_cons, step_closing rfl, closed_top hstack, run_cons, step_closing rfl, closed_top rfl,
    run_cons, step_closing rfl, closed_top rfl]
  rfl

/-- **The tokens of a grammar** are gone past, and its rules and symbols are found. -/
theorem run_script {g : AbstractGrammar} (htoks : toks.map Token.toLexeme = g.script) :
    ∃ G : Grammar, G.Lists (some g.name.text) g.names g.symbols ∧
      run { mode := .call } [] toks = behindCall G := by
  obtain ⟨calling, toks₁, rfl, hcalling, htoks₁⟩ := List.map_eq_append_iff.mp htoks
  obtain ⟨naming, toks₂, rfl, hnaming, htoks₂⟩ := List.map_eq_append_iff.mp htoks₁
  obtain ⟨listing, toks₃, rfl, hlisting, htoks₃⟩ := List.map_eq_append_iff.mp htoks₂
  obtain ⟨rules, back, rfl, hrules, hback⟩ := List.map_eq_append_iff.mp htoks₃
  obtain ⟨i, hcall⟩ := run_calling (naming ++ (listing ++ (rules ++ back))) hcalling
  let call : Frame := ⟨.paren, .call, i⟩
  obtain ⟨j, hconfig, hcomma⟩ : ∃ j, (inCall call).run _ _ = _ ∧ _ :=
    run_naming calling.reverse (listing ++ (rules ++ back)) rfl hnaming
  let config : Frame := ⟨.brace, .config, j⟩
  obtain ⟨k, hlist, hbrace⟩ : ∃ k, (inConfig g.name.text config call).run _ _ = _ ∧ _ :=
    run_listing g.name.text call rfl hcomma (rules ++ back) hlisting
  have hwithin : (inRules g.name.text ⟨.brace, .rules, k⟩ config call).Within .rules := ⟨rfl, rfl⟩
  have hempty : (inRules g.name.text ⟨.brace, .rules, k⟩ config call).grammar.Lists
      (some g.name.text) [] [] := ⟨rfl, rfl, rfl⟩
  have hclosing : nearest? back ≠ some .dot := by
    obtain ⟨l, toks, rfl, -⟩ := exists_of_map_eq_cons hback
    simp [nearest?]
  obtain ⟨G, hG, hdeclared⟩ := run_rules hwithin hbrace g.nodup hempty hrules hclosing
  refine ⟨G, hG, ?_⟩
  rw [hcall, hconfig, hlist, hdeclared, run_back rfl hback]
  rfl

/-- **A grammar that is written as a script is found**, and nothing is wrong with the script. -/
theorem scanScript_of_writes {g : AbstractGrammar} {source : String} (h : g.WritesScript source) :
    (Script.scanScript source).1.Lists (some g.name.text) g.names g.symbols ∧
      (Script.scanScript source).2 = [] := by
  obtain ⟨G, hG, hrun⟩ := run_script (tokenize_of_writes h g.standalone_script)
  rw [Script.scanScript, Script.scanTokens, hrun]
  exact ⟨hG, rfl⟩

end AbstractGrammar

end Concord
