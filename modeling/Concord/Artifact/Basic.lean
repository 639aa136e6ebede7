import Concord.Artifact.Path
import Concord.Artifact.Role
import Concord.Grammar.Document
import Concord.Query.Document
import Concord.Scope.Document
import Concord.Script.Scan

/-!
# Snapshots of the artifacts

`Artifacts.ofSources` reads the texts of the three artifacts.  A structural grammar is a document
where its path ends in `.json`, and a script otherwise; a script and highlight queries can always be
read, with diagnostics for what is wrong in them.
-/

set_option autoImplicit false

namespace Concord

/-- A value for each of the three artifacts. -/
structure PerRole (α : Type) where
  grammar : α
  highlights : α
  reference : α
deriving DecidableEq, Repr, Inhabited

/-- The value for a role. -/
def PerRole.get {α : Type} (v : PerRole α) : Role → α
  | .grammar => v.grammar
  | .highlights => v.highlights
  | .reference => v.reference

/-- Where the artifacts are: paths, and the directory that relative ones are taken from. -/
structure ArtifactPaths where
  root : String := "."
  paths : PerRole String
deriving DecidableEq, Repr, Inhabited

/-- The paths of the artifacts, taken from the root. -/
def ArtifactPaths.resolve (p : ArtifactPaths) : ArtifactPaths :=
  { p with
    paths := ⟨Path.join p.root p.paths.grammar, Path.join p.root p.paths.highlights,
      Path.join p.root p.paths.reference⟩ }

/-- A document that cannot be read at all. -/
structure Malformed where
  role : Role
  path : String
  source : String
  fault : Json.Fault
deriving Inhabited

/-- What is wrong with a document, in words. -/
def Malformed.message (m : Malformed) : String :=
  let noun := match m.role with
    | .reference => "reference grammar"
    | _ => "grammar"
  "malformed " ++ noun ++ " `" ++ m.path ++ "`: JSON parse error: " ++ m.fault.message m.source

/-- A structural grammar and what was wrong in its script. -/
structure GrammarSource where
  source : String
  grammar : Grammar
  diagnostics : List Diagnostic
deriving Inhabited

/-- Reads a structural grammar. -/
def GrammarSource.read (path source : String) : Except Malformed GrammarSource :=
  if Path.extension path = some ['j', 's', 'o', 'n'] then
    match Grammar.ofJson source with
    | .ok grammar => .ok ⟨source, grammar, []⟩
    | .error fault => .error ⟨.grammar, path, source, fault⟩
  else
    let (grammar, diagnostics) := Script.scanScript source
    .ok ⟨source, grammar, diagnostics⟩

/-- Reads a reference grammar. -/
def ScopeGrammar.read (path source : String) : Except Malformed ScopeGrammar :=
  match ScopeGrammar.ofJson source with
  | .ok g => .ok g
  | .error fault => .error ⟨.reference, path, source, fault⟩

/-- The three artifacts. -/
structure Artifacts where
  grammar : GrammarSource
  highlights : Query.Document
  reference : ScopeGrammar
  referenceSource : String
deriving Inhabited

namespace Artifacts

/-- Reads the texts of the artifacts, the reference grammar first. -/
def ofSources (paths sources : PerRole String) : Except Malformed Artifacts := do
  let reference ← ScopeGrammar.read paths.reference sources.reference
  let grammar ← GrammarSource.read paths.grammar sources.grammar
  return ⟨grammar, Query.Document.parse sources.highlights, reference, sources.reference⟩

/-- The text of an artifact. -/
def source (a : Artifacts) : Role → String
  | .grammar => a.grammar.source
  | .highlights => a.highlights.source
  | .reference => a.referenceSource

/-- What was wrong in the artifacts that can always be read. -/
def diagnostics (a : Artifacts) : List (Role × List Diagnostic) :=
  [(.grammar, a.grammar.diagnostics), (.highlights, a.highlights.diagnostics)]

/-- Whether anything was wrong in an artifact. -/
def hasDiagnostics (a : Artifacts) : Bool := a.diagnostics.any fun d ↦ !d.2.isEmpty

end Artifacts

end Concord
