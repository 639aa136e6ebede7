import Concord.Artifact.Load
import Concord.Check.Report
import Concord.Command.Arguments
import Concord.Config.Layer
import Concord.Diagnostic.Listing
import Concord.Listing.Captures
import Concord.Listing.Rules
import Concord.Listing.Scopes

/-!
# Running commands

`Invocation.run` carries out a command on files.  A command that cannot be carried out prints
nothing but the reason, and has exit code 2.  Otherwise a command prints its result, and what was
wrong in the documents beside it; the exit code is then 1 if something was not as expected.
-/

set_option autoImplicit false

namespace Concord.Command

open Files (Lookup)

/-- What a command prints, and its exit code. -/
structure Response where
  code : Nat
  output : String
  messages : List String
deriving DecidableEq, Repr, Inhabited

/-- The exit code if something was not as expected. -/
def failedCode : Nat := 1

/-- The exit code if a command cannot be carried out. -/
def fatalCode : Nat := 2

/-- Why a command cannot be carried out. -/
inductive Fatal where
  | config (f : Config.Fault)
  | category (u : UnknownCategory)
  | load (f : LoadFault)
deriving Inhabited

/-- The reason in words. -/
def Fatal.message : Fatal → String
  | config f => "configuration error: " ++ f.message
  | category u => u.message
  | load f => f.message

/-- The response if a command cannot be carried out. -/
def Fatal.response (f : Fatal) : Response := ⟨fatalCode, "", ["error: " ++ f.message]⟩

/-- A computation on files that may find that a command cannot be carried out. -/
abbrev Task (α : Type) := ExceptT Fatal Lookup α

/-- The same computation with its faults as reasons. -/
def orFatal {ε α : Type} (reason : ε → Fatal) (x : ExceptT ε Lookup α) : Task α :=
  ExceptT.mk (Except.mapError reason <$> x.run)

/-! ## Configuration -/

/-- The file for the configuration of a project. -/
def projectFile : String := "parity.toml"

/-- The layers of the configuration: the file that is named or else the one in the root, and the
settings that are given. -/
def ArtifactOptions.layers (o : ArtifactOptions) : List Config.Layer :=
  let file := match o.config with
    | some path => Config.Layer.file path true
    | none => .file (Path.join (o.root.getD ".") projectFile) false
  let setting (key : String) (value : Option String) : List Config.Layer :=
    (value.map fun v ↦ .setting key (.string v)).toList
  [file] ++ setting "artifacts.root" o.root ++ setting "artifacts.grammar" o.grammar ++
    setting "artifacts.highlights" o.highlights ++ setting "artifacts.reference" o.reference

/-- The configuration. -/
def ArtifactOptions.loadConfig (o : ArtifactOptions) : Task Config :=
  orFatal .config (Config.build Config.defaults o.layers)

/-- The path of an artifact: the one that is given, or else the configured one. -/
def ArtifactOptions.pathOf (o : ArtifactOptions) (role : Role) (file : Option String) :
    Task String := do
  match file with
  | some path => return path
  | none => return (← o.loadConfig).artifacts.resolve.paths.get role

/-- Reads an artifact.  Also answers its path. -/
def ArtifactOptions.readArtifact (o : ArtifactOptions) (role : Role) (file : Option String) :
    Task (String × String) := do
  let path ← o.pathOf role file
  let source ← orFatal .load (Concord.readArtifact role path)
  return (path, source)

/-! ## Results -/

/-- Whether results are coloured; they are not where no terminal shows them. -/
def ColorChoice.colored (terminal : Bool) : ColorChoice → Bool
  | auto => terminal
  | always => true
  | never => false

/-- A result in the form that is asked for. -/
def printed (format : Format) (colored : Bool) (text : List Fragment) (value : Json.Value) :
    String :=
  match format with
  | .text => Fragment.writeAll colored text
  | .json => value.pretty 0 ++ "\n"

/-- Answers the checks of categories. -/
def runCheck (o : ArtifactOptions) (format : Format) (colored : Bool) (names : List String)
    (strict : Bool) : Task Response := do
  let config ← o.loadConfig
  let categories ← ExceptT.mk (pure ((selectCategories config.categories names).mapError .category))
  let paths := config.artifacts.resolve.paths
  let artifacts ← orFatal .load (Artifacts.load paths)
  let messages := artifacts.diagnostics.flatMap fun d ↦
    Diagnostic.headlines (some (paths.get d.1)) colored d.2
  let report := Report.ofCategories artifacts categories
  let failed := !report.success || (strict && artifacts.hasDiagnostics)
  return ⟨if failed then failedCode else 0,
    printed format colored (report.text ++ [.plain "\n"]) report.toJson, messages⟩

/-- Lists the rules of a grammar. -/
def runRules (o : ArtifactOptions) (format : Format) (colored : Bool) (file : Option String) :
    Task Response := do
  let (path, source) ← o.readArtifact .grammar file
  let g ← orFatal .load (orMalformed (GrammarSource.read path source))
  let listing := RulesListing.ofGrammar g.grammar
  return ⟨0, printed format colored listing.text listing.toJson,
    Diagnostic.headlines (some path) colored g.diagnostics⟩

/-- Lists the scopes of a reference grammar. -/
def runScopes (o : ArtifactOptions) (format : Format) (colored : Bool)
    (file front : Option String) : Task Response := do
  let (path, source) ← o.readArtifact .reference file
  let g ← orFatal .load (orMalformed (ScopeGrammar.read path source))
  let ds := ScopeListing.select g front
  return ⟨0, printed format colored (ScopeListing.text ds) (ScopeListing.toJson ds), []⟩

/-- Lists the captures of highlight queries. -/
def runCaptures (o : ArtifactOptions) (format : Format) (colored : Bool)
    (file node : Option String) : Task Response := do
  let (path, source) ← o.readArtifact .highlights file
  let d := Query.Document.parse source
  let rows := CaptureRow.ofDocument d node
  return ⟨if Diagnostic.anyError d.diagnostics then failedCode else 0,
    printed format colored (CaptureRow.text rows) (CaptureRow.toJson rows),
    Diagnostic.headlines (some path) colored d.diagnostics⟩

namespace Invocation

/-- Carries out a command, which may find that it cannot be. -/
def task (i : Invocation) (terminal : Bool) : Task Response :=
  let colored := i.color.colored terminal
  match i.action with
  | .check names strict => runCheck i.artifacts i.format colored names strict
  | .rules file => runRules i.artifacts i.format colored file
  | .scopes file front => runScopes i.artifacts i.format colored file front
  | .captures file node => runCaptures i.artifacts i.format colored file node

/-- Carries out a command. -/
def run (i : Invocation) (terminal : Bool) : Lookup Response := do
  match ← (i.task terminal).run with
  | .ok r => return r
  | .error f => return f.response

end Invocation

end Concord.Command
