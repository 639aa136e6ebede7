import Concord.Command.Run
import Concord.Files.Tree
import Concord.Proofs.Check.Layout
import Concord.Proofs.Check.Selection
import Concord.Proofs.Check.Written
import Concord.Proofs.Files.Outcome

/-!
# Checking is all or nothing

The command that answers checks looks at one thing after another: the configuration, the names of
categories, the files of the three artifacts, and their texts.  Either something is wrong, and then
the first such thing is all that is told; or the command prints its report, and the exit code says
whether the checks passed.

* `FirstFault files o names line` says that the first thing that is wrong is told by `line`, and
  `Ready files o names config sources artifacts` that nothing is wrong.  One of them holds
  (`exists_firstFault_or_ready`).
* `FirstFault.exists_outcome_eq` and `Ready.exists_outcome_eq` say what the command comes to in
  either case.
* `run_check` says what is printed, and with which exit code.
-/

set_option autoImplicit false

namespace Concord.Command

open Files (Entry Lookup ReadFault)
open Files.Lookup (outcome outcome_bind_ok outcome_bind_error)

variable {files : String → Entry} {o : ArtifactOptions} {names : List String}

/-! ## What can be wrong -/

/-- The configuration that the options and the files make. -/
def configOn (files : String → Entry) (o : ArtifactOptions) : Except Config.Fault Config :=
  outcome files (Config.build Config.defaults o.layers)

/-- Where an artifact is. -/
def pathIn (config : Config) (role : Role) : String := config.artifacts.resolve.paths.get role

/-- There is a configuration, and all the names are those of its categories. -/
structure Selected (files : String → Entry) (o : ArtifactOptions) (names : List String)
    (config : Config) : Prop where
  config_eq : configOn files o = .ok config
  known : ∀ name ∈ names, name ∈ config.categories.map Category.name

/-- The texts of the artifacts. -/
structure Texts (files : String → Entry) (config : Config) (sources : PerRole String) : Prop where
  text_eq : ∀ role, (files (pathIn config role)).text = .ok (sources.get role)

/-- The line for the first thing that is wrong.  The cases stand in the order in which things are
looked at, and each says that nothing before it is wrong. -/
inductive FirstFault (files : String → Entry) (o : ArtifactOptions) (names : List String) :
    String → Prop
  | config {f : Config.Fault} (h : configOn files o = .error f) :
    FirstFault files o names ("error: configuration error: " ++ f.message)
  | category {config : Config} {name : String} (hconfig : configOn files o = .ok config)
    (h : names.find? (· ∉ config.categories.map Category.name) = some name) :
    FirstFault files o names ("error: unknown category `" ++ name ++ "`" ++
      ((suggest name (config.categories.map Category.name)).map fun close ↦
        "; did you mean `" ++ close ++ "`?").getD "")
  | grammarUnreadable {config : Config} {fault : ReadFault}
    (hselected : Selected files o names config)
    (h : (files (pathIn config .grammar)).text = .error fault) :
    FirstFault files o names ("error: cannot read structural grammar `" ++
      pathIn config .grammar ++ "`: " ++ fault.message)
  | highlightsUnreadable {config : Config} {grammar : String} {fault : ReadFault}
    (hselected : Selected files o names config)
    (hgrammar : (files (pathIn config .grammar)).text = .ok grammar)
    (h : (files (pathIn config .highlights)).text = .error fault) :
    FirstFault files o names ("error: cannot read highlight queries `" ++
      pathIn config .highlights ++ "`: " ++ fault.message)
  | referenceUnreadable {config : Config} {grammar highlights : String} {fault : ReadFault}
    (hselected : Selected files o names config)
    (hgrammar : (files (pathIn config .grammar)).text = .ok grammar)
    (hhighlights : (files (pathIn config .highlights)).text = .ok highlights)
    (h : (files (pathIn config .reference)).text = .error fault) :
    FirstFault files o names ("error: cannot read reference grammar `" ++
      pathIn config .reference ++ "`: " ++ fault.message)
  | referenceMalformed {config : Config} {sources : PerRole String} {fault : Json.Fault}
    (hselected : Selected files o names config) (htexts : Texts files config sources)
    (h : ScopeGrammar.ofJson sources.reference = .error fault) :
    FirstFault files o names ("error: malformed reference grammar `" ++
      pathIn config .reference ++ "`: JSON parse error: " ++ fault.message sources.reference)
  | grammarMalformed {config : Config} {sources : PerRole String} {reference : ScopeGrammar}
    {fault : Json.Fault} (hselected : Selected files o names config)
    (htexts : Texts files config sources)
    (hreference : ScopeGrammar.ofJson sources.reference = .ok reference)
    (hjson : Path.extension (pathIn config .grammar) = some ['j', 's', 'o', 'n'])
    (h : Grammar.ofJson sources.grammar = .error fault) :
    FirstFault files o names ("error: malformed grammar `" ++
      pathIn config .grammar ++ "`: JSON parse error: " ++ fault.message sources.grammar)

/-- Nothing is wrong: there is a configuration with all the categories, and all three artifacts are
read. -/
structure Ready (files : String → Entry) (o : ArtifactOptions) (names : List String)
    (config : Config) (sources : PerRole String) (artifacts : Artifacts) : Prop
    extends Selected files o names config, Texts files config sources where
  artifacts_eq : Artifacts.ofSources config.artifacts.resolve.paths sources = .ok artifacts

/-- The categories whose checks are answered: those that are named, or else all. -/
def selected (config : Config) (names : List String) : List Category :=
  config.categories.filter fun c ↦ names.isEmpty || names.contains c.name

/-! ## The stages -/

theorem outcome_orFatal {ε α : Type} (reason : ε → Fatal) (x : ExceptT ε Lookup α) :
    outcome files (orFatal reason x) = (outcome files x).mapError reason := by
  rw [orFatal, Lookup.outcome_mk, Lookup.run_map]
  rfl

theorem outcome_loadConfig (o : ArtifactOptions) :
    outcome files o.loadConfig = (configOn files o).mapError .config :=
  outcome_orFatal .config _

theorem outcome_readArtifact (role : Role) (path : String) :
    outcome files (Concord.readArtifact role path) =
      (files path).text.mapError (.unreadable role path) := by
  have htext : Lookup.run files (Files.readText path) = (files path).text := rfl
  rw [Concord.readArtifact, outcome_bind_ok (Lookup.outcome_lift _), htext]
  cases (files path).text <;> rfl

theorem outcome_orMalformed {α : Type} (x : Except Malformed α) :
    outcome files (orMalformed x) = x.mapError .malformed := by
  cases x <;> rfl

/-- A reference grammar that is malformed is noticed first. -/
theorem ofSources_reference {paths sources : PerRole String} {fault : Json.Fault}
    (h : ScopeGrammar.ofJson sources.reference = .error fault) :
    Artifacts.ofSources paths sources =
      .error ⟨.reference, paths.reference, sources.reference, fault⟩ := by
  rw [Artifacts.ofSources, ScopeGrammar.read, h]
  rfl

/-- With a reference grammar that can be read, what is left is to read the structural one. -/
theorem ofSources_grammar {paths sources : PerRole String} {reference : ScopeGrammar}
    (h : ScopeGrammar.ofJson sources.reference = .ok reference) :
    Artifacts.ofSources paths sources =
      (GrammarSource.read paths.grammar sources.grammar).map fun grammar ↦
        ⟨grammar, Query.Document.parse sources.highlights, reference, sources.reference⟩ := by
  rw [Artifacts.ofSources, ScopeGrammar.read, h]
  cases GrammarSource.read paths.grammar sources.grammar <;> rfl

/-- Only a document can be malformed, and a script never is. -/
theorem read_eq_error_iff {path source : String} {m : Malformed} :
    GrammarSource.read path source = .error m ↔
      Path.extension path = some ['j', 's', 'o', 'n'] ∧
        ∃ fault, Grammar.ofJson source = .error fault ∧ m = ⟨.grammar, path, source, fault⟩ := by
  rw [GrammarSource.read]
  split
  · rename_i hjson
    cases Grammar.ofJson source with
    | ok grammar => simp
    | error fault => simp [hjson, eq_comm]
  · rename_i hjson
    simp [hjson]

/-- Loading reads the artifacts by their roles. -/
theorem load_eq (paths : PerRole String) :
    Artifacts.load paths = (do
      let grammar ← Concord.readArtifact .grammar (paths.get .grammar)
      let highlights ← Concord.readArtifact .highlights (paths.get .highlights)
      let reference ← Concord.readArtifact .reference (paths.get .reference)
      orMalformed (Artifacts.ofSources paths ⟨grammar, highlights, reference⟩)) := rfl

/-- A file that has no text ends the loading if those before it have one. -/
theorem outcome_load_unreadable {paths : PerRole String} {role : Role} {fault : ReadFault}
    (hbefore : ∀ r ∈ Role.all.takeWhile (· ≠ role), ∃ s, (files (paths.get r)).text = .ok s)
    (h : (files (paths.get role)).text = .error fault) :
    outcome files (Artifacts.load paths) = .error (.unreadable role (paths.get role) fault) := by
  have hread (r : Role) (s : String) (hr : (files (paths.get r)).text = .ok s) :
      outcome files (Concord.readArtifact r (paths.get r)) = .ok s := by
    rw [outcome_readArtifact, hr]
    rfl
  have hfault : outcome files (Concord.readArtifact role (paths.get role)) =
      .error (.unreadable role (paths.get role) fault) := by
    rw [outcome_readArtifact, h]
    rfl
  rw [load_eq]
  cases role with
  | grammar => exact outcome_bind_error hfault _
  | highlights =>
    obtain ⟨grammar, hgrammar⟩ := hbefore .grammar (by decide)
    rw [outcome_bind_ok (hread .grammar grammar hgrammar)]
    exact outcome_bind_error hfault _
  | reference =>
    obtain ⟨grammar, hgrammar⟩ := hbefore .grammar (by decide)
    obtain ⟨highlights, hhighlights⟩ := hbefore .highlights (by decide)
    rw [outcome_bind_ok (hread .grammar grammar hgrammar),
      outcome_bind_ok (hread .highlights highlights hhighlights)]
    exact outcome_bind_error hfault _

/-- Where all three files have texts, these are read. -/
theorem outcome_load {config : Config} {sources : PerRole String}
    (h : Texts files config sources) :
    outcome files (Artifacts.load config.artifacts.resolve.paths) =
      (Artifacts.ofSources config.artifacts.resolve.paths sources).mapError .malformed := by
  have hread (r : Role) :
      outcome files (Concord.readArtifact r (config.artifacts.resolve.paths.get r)) =
        .ok (sources.get r) := by
    have htext := h.text_eq r
    rw [pathIn] at htext
    rw [outcome_readArtifact, htext]
    rfl
  rw [load_eq, outcome_bind_ok (hread .grammar), outcome_bind_ok (hread .highlights),
    outcome_bind_ok (hread .reference), outcome_orMalformed]
  rfl

/-! ## What the command comes to -/

variable (format : Format) (colored strict : Bool)

theorem Selected.selectCategories_eq {config : Config} (h : Selected files o names config) :
    selectCategories config.categories names = .ok (selected config names) := by
  have hfind : names.find? (· ∉ config.categories.map Category.name) = none := by
    rw [List.find?_eq_none]
    intro name hname
    simpa using h.known name hname
  rw [Concord.selectCategories_eq, hfind]
  rfl

/-- Whether all checks passed, and if asked for, nothing was wrong in the artifacts. -/
def succeeds (config : Config) (names : List String) (artifacts : Artifacts) : Bool :=
  (Report.ofCategories artifacts (selected config names)).success &&
    !(strict && artifacts.hasDiagnostics)

section Stages

variable {config : Config}

theorem outcome_runCheck_config {f : Config.Fault} (h : configOn files o = .error f) :
    outcome files (runCheck o format colored names strict) = .error (.config f) := by
  have hconfig : outcome files o.loadConfig = .error (.config f) := by
    rw [outcome_loadConfig, h]
    rfl
  exact outcome_bind_error hconfig _

theorem outcome_runCheck_category {u : UnknownCategory} (hconfig : configOn files o = .ok config)
    (h : selectCategories config.categories names = .error u) :
    outcome files (runCheck o format colored names strict) = .error (.category u) := by
  have hload : outcome files o.loadConfig = .ok config := by
    rw [outcome_loadConfig, hconfig]
    rfl
  rw [runCheck, outcome_bind_ok hload]
  refine outcome_bind_error ?_ _
  rw [h]
  rfl

/-- Behind the selection comes the loading. -/
theorem outcome_runCheck_load (hselected : Selected files o names config) :
    outcome files (runCheck o format colored names strict) =
      outcome files (do
        let artifacts ← orFatal .load (Artifacts.load config.artifacts.resolve.paths)
        let messages := artifacts.diagnostics.flatMap fun d ↦
          Diagnostic.headlines (some (pathIn config d.1)) colored d.2
        let report := Report.ofCategories artifacts (selected config names)
        let failed := !report.success || (strict && artifacts.hasDiagnostics)
        return ⟨if failed then failedCode else 0,
          printed format colored (report.text ++ [.plain "\n"]) report.toJson, messages⟩) := by
  have hload : outcome files o.loadConfig = .ok config := by
    rw [outcome_loadConfig, hselected.config_eq]
    rfl
  rw [runCheck, outcome_bind_ok hload, hselected.selectCategories_eq]
  rfl

theorem outcome_runCheck_unreadable {role : Role} {fault : ReadFault}
    (hselected : Selected files o names config)
    (hbefore : ∀ r ∈ Role.all.takeWhile (· ≠ role), ∃ s, (files (pathIn config r)).text = .ok s)
    (h : (files (pathIn config role)).text = .error fault) :
    outcome files (runCheck o format colored names strict) =
      .error (.load (.unreadable role (pathIn config role) fault)) := by
  rw [outcome_runCheck_load format colored strict hselected]
  refine outcome_bind_error ?_ _
  rw [outcome_orFatal, outcome_load_unreadable hbefore h]
  rfl

theorem outcome_runCheck_malformed {sources : PerRole String} {m : Malformed}
    (hselected : Selected files o names config) (htexts : Texts files config sources)
    (h : Artifacts.ofSources config.artifacts.resolve.paths sources = .error m) :
    outcome files (runCheck o format colored names strict) = .error (.load (.malformed m)) := by
  rw [outcome_runCheck_load format colored strict hselected]
  refine outcome_bind_error ?_ _
  rw [outcome_orFatal, outcome_load htexts, h]
  rfl

end Stages

namespace Fatal

theorem message_config (f : Config.Fault) :
    (config f).message = "configuration error: " ++ f.message := rfl

theorem message_category (name : String) (suggestion : Option String) :
    (category ⟨name, suggestion⟩).message = "unknown category `" ++ name ++ "`" ++
      (suggestion.map fun close ↦ "; did you mean `" ++ close ++ "`?").getD "" := by
  cases suggestion with
  | none => rfl
  | some close =>
    have hask : didYouMean close = "did you mean `" ++ close ++ "`?" := rfl
    have hclose : "; " ++ didYouMean close = "; did you mean `" ++ close ++ "`?" := by
      simp [hask, ← String.append_assoc]
    exact congrArg ("unknown category `" ++ name ++ "`" ++ ·) hclose

theorem message_unreadable (role : Role) (path : String) (fault : ReadFault) :
    (load (.unreadable role path fault)).message =
      "cannot read " ++ role.label ++ " `" ++ path ++ "`: " ++ fault.message := rfl

theorem message_reference (path source : String) (fault : Json.Fault) :
    (load (.malformed ⟨.reference, path, source, fault⟩)).message =
      "malformed " ++ "reference grammar" ++ " `" ++ path ++ "`: JSON parse error: " ++
        fault.message source := rfl

theorem message_grammar (path source : String) (fault : Json.Fault) :
    (load (.malformed ⟨.grammar, path, source, fault⟩)).message =
      "malformed " ++ "grammar" ++ " `" ++ path ++ "`: JSON parse error: " ++
        fault.message source := rfl

end Fatal

open Fatal (message_config message_category message_unreadable message_reference message_grammar)

/-- **The first thing that is wrong is what the command comes to**, and its line tells it. -/
theorem FirstFault.exists_outcome_eq {line : String} (h : FirstFault files o names line) :
    ∃ f, outcome files (runCheck o format colored names strict) = .error f ∧
      "error: " ++ f.message = line := by
  cases h with
  | config h =>
    refine ⟨_, outcome_runCheck_config format colored strict h, ?_⟩
    simp [message_config, ← String.append_assoc]
  | @category config name hconfig h =>
    have hselect : selectCategories config.categories names =
        .error ⟨name, suggest name (config.categories.map Category.name)⟩ := by
      rw [selectCategories_eq, h]
    refine ⟨_, outcome_runCheck_category format colored strict hconfig hselect, ?_⟩
    simp [message_category, ← String.append_assoc]
  | grammarUnreadable hselected h =>
    refine ⟨_, outcome_runCheck_unreadable format colored strict hselected
      (by simp [Role.all]) h, ?_⟩
    simp [message_unreadable, Role.label, ← String.append_assoc]
  | highlightsUnreadable hselected hgrammar h =>
    refine ⟨_, outcome_runCheck_unreadable format colored strict hselected
      (by simp [Role.all, hgrammar]) h, ?_⟩
    simp [message_unreadable, Role.label, ← String.append_assoc]
  | referenceUnreadable hselected hgrammar hhighlights h =>
    refine ⟨_, outcome_runCheck_unreadable format colored strict hselected
      (by simp [Role.all, hgrammar, hhighlights]) h, ?_⟩
    simp [message_unreadable, Role.label, ← String.append_assoc]
  | @referenceMalformed config sources fault hselected htexts h =>
    have hsources : Artifacts.ofSources config.artifacts.resolve.paths sources =
        .error ⟨.reference, pathIn config .reference, sources.reference, fault⟩ :=
      ofSources_reference h
    refine ⟨_, outcome_runCheck_malformed format colored strict hselected htexts hsources, ?_⟩
    simp [message_reference, ← String.append_assoc]
  | @grammarMalformed config sources _ fault hselected htexts hreference hjson h =>
    have hread : GrammarSource.read config.artifacts.resolve.paths.grammar sources.grammar =
        .error ⟨.grammar, pathIn config .grammar, sources.grammar, fault⟩ :=
      read_eq_error_iff.mpr ⟨hjson, fault, h, rfl⟩
    have hsources : Artifacts.ofSources config.artifacts.resolve.paths sources =
        .error ⟨.grammar, pathIn config .grammar, sources.grammar, fault⟩ := by
      rw [ofSources_grammar hreference, hread]
      rfl
    refine ⟨_, outcome_runCheck_malformed format colored strict hselected htexts hsources, ?_⟩
    simp [message_grammar, ← String.append_assoc]

/-- **If nothing is wrong, the command prints its report.** -/
theorem Ready.exists_outcome_eq {config : Config} {sources : PerRole String} {artifacts : Artifacts}
    (h : Ready files o names config sources artifacts) :
    ∃ messages, outcome files (runCheck o format colored names strict) =
      .ok ⟨if succeeds strict config names artifacts then 0 else failedCode,
        printed format colored
          ((Report.ofCategories artifacts (selected config names)).text ++ [.plain "\n"])
          (Report.ofCategories artifacts (selected config names)).toJson, messages⟩ := by
  have hload : outcome files (orFatal .load (Artifacts.load config.artifacts.resolve.paths)) =
      .ok artifacts := by
    rw [outcome_orFatal, outcome_load h.toTexts, h.artifacts_eq]
    rfl
  rw [outcome_runCheck_load format colored strict h.toSelected, outcome_bind_ok hload]
  refine ⟨_, congrArg Except.ok (congrArg (Response.mk · _ _) ?_)⟩
  rw [succeeds]
  cases (Report.ofCategories artifacts (selected config names)).success <;>
    cases strict && artifacts.hasDiagnostics <;> rfl

/-! ## Nothing else happens -/

/-- Either a file has no text, and the first such is told, or all files have texts. -/
theorem Selected.exists_firstFault_or_texts {config : Config}
    (h : Selected files o names config) :
    (∃ line, FirstFault files o names line) ∨ ∃ sources, Texts files config sources := by
  cases hgrammar : (files (pathIn config .grammar)).text with
  | error fault => exact .inl ⟨_, .grammarUnreadable h hgrammar⟩
  | ok grammar =>
    cases hhighlights : (files (pathIn config .highlights)).text with
    | error fault => exact .inl ⟨_, .highlightsUnreadable h hgrammar hhighlights⟩
    | ok highlights =>
      cases hreference : (files (pathIn config .reference)).text with
      | error fault => exact .inl ⟨_, .referenceUnreadable h hgrammar hhighlights hreference⟩
      | ok reference =>
        refine .inr ⟨⟨grammar, highlights, reference⟩, ⟨fun role ↦ ?_⟩⟩
        cases role <;> assumption

/-- Either a text is malformed, and the first such is told, or all artifacts are read. -/
theorem Selected.exists_firstFault_or_ready {config : Config} {sources : PerRole String}
    (h : Selected files o names config) (htexts : Texts files config sources) :
    (∃ line, FirstFault files o names line) ∨
      ∃ artifacts, Ready files o names config sources artifacts := by
  cases hreference : ScopeGrammar.ofJson sources.reference with
  | error fault => exact .inl ⟨_, .referenceMalformed h htexts hreference⟩
  | ok reference =>
    cases hgrammar : GrammarSource.read config.artifacts.resolve.paths.grammar
        sources.grammar with
    | error m =>
      obtain ⟨hjson, fault, hfault, -⟩ := read_eq_error_iff.mp hgrammar
      exact .inl ⟨_, .grammarMalformed h htexts hreference hjson hfault⟩
    | ok grammar =>
      have hsources := @ofSources_grammar config.artifacts.resolve.paths _ _ hreference
      rw [hgrammar] at hsources
      exact .inr ⟨_, ⟨h, htexts, hsources⟩⟩

/-- **Either something is wrong first, or nothing is wrong.** -/
theorem exists_firstFault_or_ready (files : String → Entry) (o : ArtifactOptions)
    (names : List String) :
    (∃ line, FirstFault files o names line) ∨
      ∃ config sources artifacts, Ready files o names config sources artifacts := by
  cases hconfig : configOn files o with
  | error f => exact .inl ⟨_, .config hconfig⟩
  | ok config =>
    cases hfind : names.find? (· ∉ config.categories.map Category.name) with
    | some name => exact .inl ⟨_, .category hconfig hfind⟩
    | none =>
      have hselected : Selected files o names config :=
        ⟨hconfig, by simpa using List.find?_eq_none.mp hfind⟩
      rcases hselected.exists_firstFault_or_texts with hfault | ⟨sources, htexts⟩
      · exact .inl hfault
      · rcases hselected.exists_firstFault_or_ready htexts with hfault | ⟨artifacts, hready⟩
        · exact .inl hfault
        · exact .inr ⟨config, sources, artifacts, hready⟩

theorem succeeds_iff {config : Config} {artifacts : Artifacts} :
    succeeds strict config names artifacts = true ↔
      (∀ c ∈ (Report.ofCategories artifacts (selected config names)).outcomes, c.passed = true) ∧
        (strict = true → artifacts.grammar.diagnostics = [] ∧ artifacts.highlights.diagnostics = [])
    := by
  cases strict <;>
    simp [succeeds, Report.success, Artifacts.hasDiagnostics, Artifacts.diagnostics]

/-! ## What is printed -/

section Running

variable {i : Invocation} {strict} (terminal : Bool) (hcheck : i.action = .check names strict)

include hcheck

/-- The command responds with what it comes to. -/
theorem run_of_check :
    Lookup.run files (i.run terminal) =
      match outcome files
        (runCheck i.artifacts i.format (i.color.colored terminal) names strict) with
      | .ok r => r
      | .error f => f.response := by
  have htask : i.task terminal =
      runCheck i.artifacts i.format (i.color.colored terminal) names strict := by
    rw [Invocation.task, hcheck]
  rw [Invocation.run, Lookup.run_bind, htask, outcome]
  cases Lookup.run files
    (runCheck i.artifacts i.format (i.color.colored terminal) names strict).run <;> rfl

theorem FirstFault.run_eq {line : String} (h : FirstFault files i.artifacts names line) :
    Lookup.run files (i.run terminal) = ⟨2, "", [line]⟩ := by
  obtain ⟨f, houtcome, rfl⟩ := h.exists_outcome_eq i.format (i.color.colored terminal) strict
  rw [run_of_check terminal hcheck, houtcome]
  rfl

theorem Ready.exists_run_eq {config : Config} {sources : PerRole String} {artifacts : Artifacts}
    (h : Ready files i.artifacts names config sources artifacts) :
    ∃ messages, Lookup.run files (i.run terminal) =
      ⟨if succeeds strict config names artifacts then 0 else 1,
        printed i.format (i.color.colored terminal)
          ((Report.ofCategories artifacts (selected config names)).text ++ [.plain "\n"])
          (Report.ofCategories artifacts (selected config names)).toJson, messages⟩ := by
  obtain ⟨messages, houtcome⟩ := h.exists_outcome_eq i.format (i.color.colored terminal) strict
  refine ⟨messages, ?_⟩
  rw [run_of_check terminal hcheck, houtcome]
  rfl

end Running

/-- The artifacts at their usual places, with little in them. -/
def sampleFiles : Files.FileTree :=
  .ofFiles [("grammar.js", "".toUTF8), ("queries/highlights.scm", "(a) @b".toUTF8),
    ("../sight/client/syntaxes/stata.tmLanguage.json", "\x7b\"scopeName\": \"s\"\x7d".toUTF8)]

/-- A check of one of the categories that are built in. -/
def sampleInvocation : Invocation := { action := .check ["macros"] false }

/-- What is printed for it. -/
def sampleOutput : String :=
  "macros\n" ++
    "  FAIL  has_scope \"variable.other.global.stata\"\n" ++
    "  FAIL  has_rule \"global_macro\"\n" ++
    "  FAIL  has_capture (global_macro) @variable\n" ++
    "        hint: no pattern captures `(global_macro)`\n" ++
    "0 passed, 3 failed\n"

/-- Where several things are wrong, an unknown category is told before a missing file. -/
example : Lookup.run (fun _ ↦ .missing) (Invocation.run { action := .check ["macro"] true } false) =
    ⟨2, "", ["error: unknown category `macro`; did you mean `macros`?"]⟩ := by
  decide +kernel

end Concord.Command
