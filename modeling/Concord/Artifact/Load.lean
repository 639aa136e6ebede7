import Concord.Artifact.Basic
import Concord.Files.Text

/-!
# Loading the artifacts

All three artifacts are read before any is parsed, so a missing file is reported even where another
one is malformed.
-/

set_option autoImplicit false

namespace Concord

open Files (Lookup ReadFault)

/-- Why artifacts could not be loaded. -/
inductive LoadFault where
  | unreadable (role : Role) (path : String) (fault : ReadFault)
  | malformed (m : Malformed)
deriving Inhabited

/-- The reason in words. -/
def LoadFault.message : LoadFault → String
  | unreadable role path fault =>
    "cannot read " ++ role.label ++ " `" ++ path ++ "`: " ++ fault.message
  | malformed m => m.message

/-- Reads the text of an artifact. -/
def readArtifact (role : Role) (path : String) : ExceptT LoadFault Lookup String := do
  match ← Files.readText path with
  | .ok s => return s
  | .error f => throw (.unreadable role path f)

/-- Reads a text of an artifact that may be malformed. -/
def orMalformed {α : Type} : Except Malformed α → ExceptT LoadFault Lookup α
  | .ok a => return a
  | .error m => throw (.malformed m)

/-- Loads the artifacts. -/
def Artifacts.load (paths : PerRole String) : ExceptT LoadFault Lookup Artifacts := do
  let grammar ← readArtifact .grammar paths.grammar
  let highlights ← readArtifact .highlights paths.highlights
  let reference ← readArtifact .reference paths.reference
  orMalformed (Artifacts.ofSources paths ⟨grammar, highlights, reference⟩)

end Concord
