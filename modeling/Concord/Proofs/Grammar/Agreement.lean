import Concord.Proofs.Grammar.Document
import Concord.Proofs.Grammar.Script

/-!
# Documents and scripts of one grammar say the same

Two readers extract what a grammar declares and refers to: one walks over the values of a JSON
document, in which the members of objects have been sorted, and one over the tokens of a script with
a stack of delimiters.  `AbstractGrammar.readers_agree` says that they find the same in a grammar
however it is written, unless its document has lists and objects in more than `Json.deepest` others.

Each grammar is written as some document (`AbstractGrammar.writesDocument_compact`) and as some
script (`AbstractGrammar.writesScript_spread`), and there are grammars whose document is too deep to
be read (`AbstractGrammar.ofJson_nested`).
-/

set_option autoImplicit false

namespace Concord

namespace AbstractGrammar

/-! ## Writing grammars -/

/-- The compact text of the document. -/
theorem writesDocument_compact (g : AbstractGrammar) : g.WritesDocument g.document.compact := by
  have h := g.document.writes_compact .nil (by simp)
  rwa [List.append_nil, List.append_nil] at h

/-- No lexeme of a script goes on with a blank. -/
theorem writesScript_spread (g : AbstractGrammar) :
    g.WritesScript (String.ofList (Script.spelling.spread ' ' g.script)) := by
  rw [WritesScript, String.toList_ofList]
  refine Spelling.writes_spread rfl fun l _ ↦ ?_
  show l.absorbs ' ' = false
  rw [Script.Lexeme.absorbs]
  split <;> rfl

/-! ## Agreement -/

/-- **The readers agree.**  A script of a grammar is scanned without a diagnostic, and its document
is read exactly if it is not too deep; the name, the names of the rules, the references and the
undeclared references are the same. -/
theorem readers_agree (g : AbstractGrammar) {document script : String}
    (hdocument : g.WritesDocument document) (hscript : g.WritesScript script) :
    (Script.scanScript script).2 = [] ∧
      (Script.scanScript script).1.name = some g.name.text ∧
      (Script.scanScript script).1.ruleNames = g.names ∧
      (Script.scanScript script).1.references = g.symbols.eraseDups ∧
      (g.document.depth ≤ Json.deepest → ∃ G, Grammar.ofJson document = .ok G ∧
        G.name = (Script.scanScript script).1.name ∧
        G.ruleNames = (Script.scanScript script).1.ruleNames ∧
        G.references = (Script.scanScript script).1.references ∧
        G.undeclared = (Script.scanScript script).1.undeclared) ∧
      (Json.deepest < g.document.depth →
        ∃ stop, Grammar.ofJson document = .error ⟨.tooDeep, stop⟩) := by
  obtain ⟨hscan, hclean⟩ := scanScript_of_writes hscript
  have hnames : g.names.eraseDups = g.names := eraseDups_of_nodup g.nodup
  have hread := g.lists_reading
  refine ⟨hclean, hscan.name_eq, hscan.ruleNames_eq.trans hnames, hscan.references_eq, ?_,
    ofJson_of_depth_lt hdocument⟩
  intro hdepth
  refine ⟨g.reading.grammar, ofJson_of_writes hdocument hdepth, ?_, ?_, ?_, ?_⟩
  · rw [hread.name_eq, hscan.name_eq]
  · rw [hread.ruleNames_eq, hscan.ruleNames_eq]
  · rw [hread.references_eq, hscan.references_eq]
  · rw [hread.undeclared_eq, hscan.undeclared_eq]

/-- A grammar with a literal that looks like a symbol, and a name that is not declared. -/
def sums : AbstractGrammar where
  name := ⟨"sums", by decide⟩
  rules :=
    [(⟨"sum", by decide⟩, .seq [.field "first" (.symbol ⟨"num", by decide⟩),
      .repetition (.seq [.literal "'$.op", .symbol ⟨"num", by decide⟩])]),
    (⟨"num", by decide⟩,
      .prec (.number (-1)) (.choice [.symbol ⟨"digits", by decide⟩, .literal "\x7d"]))]
  nodup := by decide

/-- The readers agree on `sums`. -/
theorem readers_agree_sums :
    sums.WritesDocument sums.document.compact ∧
      sums.WritesScript (String.ofList (Script.spelling.spread ' ' sums.script)) ∧
      sums.document.depth ≤ Json.deepest ∧
      ∃ G, Grammar.ofJson sums.document.compact = .ok G ∧ G.name = some "sums" ∧
        G.ruleNames = ["sum", "num"] ∧ G.references = ["num", "digits"] ∧
        G.undeclared = ["digits"] := by
  have hdepth : sums.document.depth ≤ Json.deepest := by decide
  obtain ⟨hclean, hname, hnames, hrefs, hagree, -⟩ :=
    readers_agree sums sums.writesDocument_compact sums.writesScript_spread
  obtain ⟨G, hG, hname', hnames', hrefs', -⟩ := hagree hdepth
  rw [hname] at hname'
  rw [hnames] at hnames'
  rw [hrefs] at hrefs'
  have hnames' : G.ruleNames = ["sum", "num"] := hnames'
  have hrefs' : G.references = ["num", "digits"] := hrefs'.trans (by decide)
  refine ⟨sums.writesDocument_compact, sums.writesScript_spread, hdepth, G, hG, hname', hnames',
    hrefs', ?_⟩
  rw [Grammar.undeclared_eq, hrefs', hnames']
  decide

/-! ## Documents that are too deep -/

/-- A grammar of one rule, which repeats a literal so many times over. -/
def nested (times : Nat) : AbstractGrammar where
  name := ⟨"a", by decide⟩
  rules := [(⟨"a", by decide⟩, RuleBody.repetition^[times] (.literal "x"))]
  nodup := by simp

theorem depth_nested (times : Nat) : (nested times).document.depth = times + 3 := by
  have hbody : (RuleBody.value (RuleBody.repetition^[times] (.literal "x"))).depth = times + 1 := by
    induction times with
    | zero => rfl
    | succ times ih =>
      rw [Function.iterate_succ_apply', RuleBody.value]
      simpa [RuleBody.tagged, Json.Value.depth, Json.Value.membersDepth] using ih
  simp [depth_document, members, nested, Json.Value.membersDepth, hbody]

/-- **A grammar whose document is turned down**, as its literal is an object in 127 others. -/
theorem ofJson_nested :
    (nested 125).WritesDocument (nested 125).document.compact ∧
      ∀ G, Grammar.ofJson (nested 125).document.compact ≠ .ok G := by
  have hwrites := (nested 125).writesDocument_compact
  refine ⟨hwrites, ?_⟩
  intro G hG
  have hdepth : Json.deepest < (nested 125).document.depth := by
    rw [depth_nested]
    decide
  obtain ⟨stop, hstop⟩ := ofJson_of_depth_lt hwrites hdepth
  rw [hstop] at hG
  cases hG

end AbstractGrammar

end Concord
