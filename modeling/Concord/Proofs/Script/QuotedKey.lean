import Concord.Proofs.Script.Alike
import Concord.Proofs.Script.Quoting

/-!
# Keys in quotes

A key of an object may be written as a name or as a string.  The scanner of grammar scripts reads
keys in three places: it asks for the key `rules` in front of the `rules` object, takes the keys in
that object for declarations, and asks for the key `name` in the configuration.

* `run_opener` — the walk up to a brace or a comma does not depend on what follows.
* `alike_key` — the steps at the key and at the key in quotes.
* `scanScript_quoted_key` — what a script and the script with the key in quotes have in common.
-/

set_option autoImplicit false

namespace Concord.Script

/-! ## In front of the key -/

namespace ScanState

variable {s : ScanState} {before after after' : List Token} {t opener : Token}

theorem step_of_sameAhead (h : SameAhead after after') :
    s.step before t after' = s.step before t after := by
  have hdeclaration : s.declaration before t after' = s.declaration before t after := by
    unfold declaration
    rw [h.nearest]
  unfold step
  split
  all_goals first
    | rfl
    | rw [hdeclaration, grammarName_eq, grammarName_eq, reference_eq, reference_eq, h.string,
        h.name]

/-- A name sees no further than to a brace or a comma. -/
theorem sameAhead_opener (hopener : opener.kind = .opening .brace ∨ opener.kind = .comma)
    (ts rest : List Token) : SameAhead (ts ++ [opener]) (ts ++ opener :: rest) := by
  have hne : ∀ k, k = .colon ∨ k = .dot ∨ k = .string ∨ k = .ident → opener.kind ≠ k := by
    rintro k hk rfl
    rcases hopener with heq | heq <;> simp [heq] at hk
  match ts with
  | [] =>
    constructor
    · rfl
    · cases rest <;> simp [stringAhead?, hne]
    · cases rest <;> simp [nameAhead?, hne]
  | [t] =>
    constructor
    · rfl
    · simp [stringAhead?, hne]
    · simp [nameAhead?, hne]
  | t :: u :: ts => exact ⟨rfl, rfl, rfl⟩

/-- So the walk up to a brace or a comma does not depend on what follows. -/
theorem run_opener (hopener : opener.kind = .opening .brace ∨ opener.kind = .comma)
    (s : ScanState) (before ts rest : List Token) :
    s.run before (ts ++ opener :: rest) =
      (s.run before (ts ++ [opener])).run (opener :: (ts.reverse ++ before)) rest := by
  induction ts generalizing s before with
  | nil =>
    have hstep : s.step before opener rest = s.step before opener [] := by
      unfold step
      rcases hopener with heq | heq <;> rw [heq]
    rw [List.nil_append, run, hstep]
    rfl
  | cons t ts ih =>
    rw [List.cons_append, List.cons_append, run, run, ih,
      step_of_sameAhead (sameAhead_opener hopener ts rest), List.reverse_cons, List.append_assoc]
    rfl

end ScanState

/-! ## The key itself -/

section Key

variable {s : ScanState} {key key' colon colon' : Token} {before after after' : List Token}

/-- What the scanner takes for the name of the grammar: the key `name` in the configuration, with a
string behind its colon. -/
def IsGrammarName (s : ScanState) (key : Token) (after : List Token) : Prop :=
  s.topRole = .config ∧ key.text = "name".toList ∧ nearest? after = some .string

theorem nearest?_colon (hcolon : colon.kind = .colon) : nearest? (colon :: after) = some .colon :=
  congrArg some hcolon

theorem step_colon (hcolon : colon.kind = .colon) : s.step before colon after = s :=
  ScanState.step_mark (by rw [hcolon]; rfl) (by rw [Token.key?, hcolon])

theorem grammarName_string (hkey : key.kind = .string) : s.grammarName before key after = s := by
  rw [ScanState.grammarName_eq, if_neg]
  rintro ⟨-, hident, -⟩
  rw [hkey] at hident
  contradiction

theorem declaration_keeps (s : ScanState) (before : List Token) (t : Token) (after : List Token) :
    (s.declaration before t after).mode = s.mode ∧
      (s.declaration before t after).stack = s.stack ∧
        (s.declaration before t after).grammar.name = s.grammar.name := by
  unfold ScanState.declaration
  split
  · split
    · exact ⟨rfl, rfl, rfl⟩
    · dsimp only
      split <;> exact ⟨rfl, rfl, rfl⟩
  · exact ⟨rfl, rfl, rfl⟩

theorem nearest?_of_stringAhead? {name : String}
    (hahead : stringAhead? (colon :: after) = some name) : nearest? after = some .string := by
  cases after with
  | nil => contradiction
  | cons value after =>
    rw [stringAhead?] at hahead
    split at hahead
    · rename_i hkinds
      rw [nearest?, List.head?_cons, Option.map_some, hkinds.2]
    · contradiction

/-- **At the key** the two walks find the same, but that only the first one may find the name of the
grammar. -/
theorem alike_key (hkey : key.kind = .ident) (hkey' : key'.kind = .string)
    (hsame : key'.key? = some key.text) (hcolon : colon.kind = .colon)
    (hcolon' : colon'.kind = .colon) :
    Alike (IsGrammarName s key after) s.grammar.name (s.step before key (colon :: after))
      (s.step before key' (colon' :: after')) := by
  have hself : key.key? = some key.text := by rw [Token.key?, hkey]
  have hbefore : List.Forall₂ SameKey before before :=
    List.forall₂_same.mpr fun t _ ↦ sameKey_of_toLexeme_eq rfl
  have hdeclaration : Alike (IsGrammarName s key after) s.grammar.name
      (s.declaration before key (colon :: after))
      (s.declaration before key' (colon' :: after')) :=
    (Alike.refl s).declaration hbefore hself hsame
      ((nearest?_colon hcolon').trans (nearest?_colon hcolon).symm)
  -- a colon is no dot, so neither key is a reference, and the string is no name of the grammar
  rw [ScanState.step_of_key hself, ScanState.step_of_key hsame,
    ScanState.reference_of_nearest_ne (by simp [nearest?_colon hcolon]),
    ScanState.reference_of_nearest_ne (by simp [nearest?_colon hcolon']),
    grammarName_string hkey', ScanState.grammarName_eq]
  split
  · rename_i hnamed
    obtain ⟨hconfig, -, htext, -⟩ := hnamed
    obtain ⟨-, hstack, -⟩ := declaration_keeps s before key (colon :: after)
    obtain ⟨-, -, hname'⟩ := declaration_keeps s before key' (colon' :: after')
    have hrole : (s.declaration before key (colon :: after)).topRole = s.topRole := by
      rw [ScanState.topRole, hstack, ScanState.topRole]
    refine { hdeclaration with name := ?_ }
    cases hahead : stringAhead? (colon :: after) with
    | none => exact hdeclaration.name
    | some name =>
      exact .inr ⟨⟨hrole ▸ hconfig, htext, nearest?_of_stringAhead? hahead⟩, hname'⟩
  · exact hdeclaration

/-- Behind the key and its colon the two walks go on alike. -/
theorem alike_run {opener : Token} {rest : List Token} (front : List Token) (mode : Mode)
    (hopener : opener.kind = .opening .brace ∨ opener.kind = .comma) (hkey : key.kind = .ident)
    (hkey' : key'.kind = .string) (hsame : key'.key? = some key.text) (hcolon : colon.kind = .colon)
    (hrest : rest.map Token.toLexeme = (colon :: after).map Token.toLexeme) :
    let s := ScanState.run { mode } [] (front ++ [opener])
    Alike (IsGrammarName s key after) s.grammar.name
      (ScanState.run { mode } [] (front ++ opener :: key :: colon :: after))
      (ScanState.run { mode } [] (front ++ opener :: key' :: rest)) := by
  intro s
  obtain ⟨colon', after', rfl, hlexeme, hafter⟩ := List.map_eq_cons_iff.mp hrest
  have hcolon' : colon'.kind = .colon := by rw [hlexeme, hcolon]
  -- from here on there is one more string behind the one walk, where the other has a name
  have hbefore : SameBehind (colon :: key :: opener :: (front.reverse ++ []))
      (colon' :: key' :: opener :: (front.reverse ++ [])) :=
    { keys := .cons (sameKey_of_toLexeme_eq hlexeme)
        (.cons ⟨by rw [hsame, Token.key?, hkey], .inr ⟨hkey, hkey'⟩⟩
          (List.forall₂_same.mpr fun t _ ↦ sameKey_of_toLexeme_eq rfl))
      named := by
        simp only [followsName, List.head?_cons, Option.any_some, hcolon, hcolon']
        rfl }
  rw [ScanState.run_opener hopener _ _ _ (key :: colon :: after),
    ScanState.run_opener hopener _ _ _ (key' :: colon' :: after'), ScanState.run, ScanState.run,
    ScanState.run, ScanState.run, step_colon hcolon, step_colon hcolon']
  exact (alike_key hkey hkey' hsame hcolon hcolon').run hbefore hafter

end Key

/-! ## Scripts without a call -/

theorem mode_step (s : ScanState) (before : List Token) (t : Token) (after : List Token) :
    (s.step before t after).mode = s.mode := by
  have hread :
      (((s.declaration before t after).grammarName before t after).reference t after).mode =
        s.mode :=
    (Walk.reference_agrees _ t after).mode_eq.trans
      ((Walk.grammarName_agrees _ before t after).mode_eq.trans
        (declaration_keeps s before t after).1)
  unfold ScanState.step
  split
  · rw [ScanState.opened_eq]
    cases s.openingRole _ before <;> rfl
  · unfold ScanState.closed
    split <;> rfl
  · exact hread
  · exact hread
  · rfl

/-- The scanner looks for rules anywhere, and has met no configuration. -/
structure Unconfigured (s : ScanState) : Prop where
  mode_eq : s.mode = .anywhere
  roles : ∀ f ∈ s.stack, f.role ≠ .config

namespace Unconfigured

variable {s s' : ScanState} {before after : List Token} {t : Token}

theorem topRole_ne (h : Unconfigured s) : s.topRole ≠ .config := by
  rw [ScanState.topRole]
  cases hstack : s.stack with
  | nil => simp
  | cons f fs => simpa using h.roles f (hstack ▸ List.mem_cons_self)

theorem openingRole_ne (h : Unconfigured s) (d : Delimiter) (before : List Token) :
    s.openingRole d before ≠ .config := by
  intro hconfig
  obtain rfl := ScanState.delimiter_of_openingRole hconfig (by simp)
  have hcall := ((s.openingRole_eq_config_iff before).mp hconfig).1.1
  rw [h.mode_eq] at hcall
  contradiction

theorem step (h : Unconfigured s) : Unconfigured (s.step before t after) where
  mode_eq := (mode_step s before t after).trans h.mode_eq
  roles := by
    cases hdelimiter : t.kind.isDelimiter with
    | false =>
      rw [(s.step_other before after hdelimiter).1]
      exact h.roles
    | true =>
      cases hkind : t.kind with
      | opening d =>
        rw [ScanState.step_opening hkind, (s.opened_stack d before t).1]
        exact List.forall_mem_cons.mpr ⟨h.openingRole_ne d before, h.roles⟩
      | closing d =>
        rw [ScanState.step_closing hkind]
        rcases s.closed_cases d t with ⟨hstack, -⟩ | ⟨skipped, f, hstack, -, -⟩
        · rw [hstack]
          exact h.roles
        · intro f' hf'
          refine h.roles f' ?_
          rw [hstack]
          exact List.mem_append_right skipped (List.mem_cons_of_mem f hf')
      | _ => simp [hkind, TokenKind.isDelimiter] at hdelimiter

theorem run (h : Unconfigured s) (before ts : List Token) : Unconfigured (s.run before ts) := by
  induction ts generalizing s before with
  | nil => exact h
  | cons t ts ih => exact ih h.step (t :: before)

end Unconfigured

/-- **A key may be put in quotes**: the rules that are declared, those that are referred to and the
kinds of problems stay the same.  So does the name of the grammar, unless the key is the `name` in
the configuration with a string behind it: this one is not found in quotes, and what has been found
in front of it is kept. -/
theorem scanScript_quoted_key {quote : Char} (hquote : quote = '"' ∨ quote = '\x27')
    {source : String} {front back : List Char} {before after : List Token}
    {opener key colon : Token}
    (htokens : tokenize source = before ++ opener :: key :: colon :: after)
    (hopener : opener.kind = .opening .brace ∨ opener.kind = .comma) (hkey : key.kind = .ident)
    (hcolon : colon.kind = .colon) (hsource : source.toList = front ++ (key.text ++ back))
    (hfront : utf8Length front = key.start) :
    let quoted := String.ofList (front ++ quote :: (key.text ++ quote :: back))
    let g := scanScript source
    let g' := scanScript quoted
    let s := ScanState.run { mode := .call } [] (before ++ [opener])
    g'.1.ruleNames = g.1.ruleNames ∧ g'.1.references = g.1.references ∧
      g'.2.map (·.kind) = g.2.map (·.kind) ∧
        (g'.1.name = g.1.name ∨ IsGrammarName s key after ∧ g'.1.name = s.grammar.name) := by
  intro quoted g g' s
  have hcut : tokenize source = (before ++ [opener]) ++ key :: colon :: after :=
    htokens.trans (List.append_cons before opener (key :: colon :: after))
  obtain ⟨rest, hquoted, hrest⟩ := tokenize_quoted hquote hcut hkey hcolon hsource hfront
  rw [← List.append_cons] at hquoted
  have hstring : (⟨inQuotes quote key.toLexeme, key.start⟩ : Token).key? = some key.text := by
    simp [Token.key?, inQuotes]
  have halike (mode : Mode) := alike_run before mode hopener hkey rfl hstring hcolon hrest
  rw [← htokens, ← hquoted] at halike
  have hmode : scanMode (tokenize quoted) = scanMode (tokenize source) := by
    rw [scanMode, scanMode, (halike .call).callSeen]
  have hscan : scanTokens (tokenize quoted) =
      ScanState.run { mode := scanMode (tokenize source) } [] (tokenize quoted) := by
    rw [scanTokens_eq_run, hmode]
  have h := halike (scanMode (tokenize source))
  rw [← hscan, ← scanTokens_eq_run] at h
  refine ⟨h.ruleNames, h.references, h.finish, h.name.imp_right fun hlost ↦ ?_⟩
  -- where no call is looked for there is no configuration, so that the name cannot be lost
  cases hscanMode : scanMode (tokenize source) with
  | call =>
    rw [hscanMode] at hlost
    exact hlost
  | anywhere =>
    rw [hscanMode] at hlost
    obtain ⟨⟨hconfig, -⟩, -⟩ := hlost
    have hstart : Unconfigured { mode := .anywhere } := ⟨rfl, by simp⟩
    exact absurd hconfig (hstart.run [] (before ++ [opener])).topRole_ne

/-- A rule is declared by a string as by a name. -/
theorem scanScript_quoted_key_rule :
    let source := "grammar(\x7b name: 'sums', rules: \x7b sum: $ => $.num \x7d \x7d)"
    let quoted := "grammar(\x7b name: 'sums', rules: \x7b 'sum': $ => $.num \x7d \x7d)"
    let opener : Token := ⟨⟨.opening .brace, ['\x7b']⟩, 31⟩
    let key : Token := ⟨⟨.ident, "sum".toList⟩, 33⟩
    let colon : Token := ⟨⟨.colon, [':']⟩, 36⟩
    tokenize source =
        (tokenize source).take 9 ++ opener :: key :: colon :: (tokenize source).drop 12 ∧
      (scanScript quoted).1.ruleNames = ["sum"] ∧ (scanScript quoted).1.name = some "sums" := by
  intro source quoted opener key colon
  have htokens : tokenize source =
      (tokenize source).take 9 ++ opener :: key :: colon :: (tokenize source).drop 12 := by
    decide +kernel
  have hsource : source.toList = source.toList.take 33 ++ (key.text ++ source.toList.drop 36) := by
    decide +kernel
  have hfront : utf8Length (source.toList.take 33) = key.start := by decide +kernel
  have hquoted : String.ofList (source.toList.take 33 ++
      '\x27' :: (key.text ++ '\x27' :: source.toList.drop 36)) = quoted := by decide +kernel
  have hfound : (scanScript source).1.ruleNames = ["sum"] ∧
      (scanScript source).1.name = some "sums" := by decide +kernel
  obtain ⟨hrules, -, -, hname⟩ :=
    scanScript_quoted_key (.inr rfl) htokens (.inl rfl) rfl rfl hsource hfront
  rw [hquoted] at hrules hname
  refine ⟨htokens, hrules.trans hfound.1, ?_⟩
  rcases hname with hname | ⟨⟨-, htext, -⟩, -⟩
  · exact hname.trans hfound.2
  · exact absurd htext (by decide)

/-- The name of a grammar is not found behind a string. -/
theorem scanScript_quoted_name :
    let source := "grammar(\x7b name: 'x', rules: \x7b\x7d \x7d)"
    let quoted := "grammar(\x7b 'name': 'x', rules: \x7b\x7d \x7d)"
    (tokenize source).drop 2 = ⟨⟨.opening .brace, ['\x7b']⟩, 8⟩ ::
        ⟨⟨.ident, "name".toList⟩, 10⟩ :: ⟨⟨.colon, [':']⟩, 14⟩ :: (tokenize source).drop 5 ∧
      quoted = String.ofList (source.toList.take 10 ++
        '\x27' :: ("name".toList ++ '\x27' :: source.toList.drop 14)) ∧
        (scanScript source).1.name = some "x" ∧ (scanScript quoted).1.name = none := by
  decide +kernel

end Concord.Script
