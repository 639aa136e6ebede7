import Concord.Artifact.Basic
import Concord.Check.Reading
import Concord.Config.Setting

/-!
# Configurations

A configuration says where the artifacts are and which categories of checks there are.  It is read
from a table.  Paths and names may also be numbers or truth values, which are taken as their texts;
in checks they may not.
-/

set_option autoImplicit false

namespace Concord

/-- Where the artifacts are, and the categories of checks. -/
structure Config where
  artifacts : ArtifactPaths
  categories : List Category := []
deriving Repr, Inhabited

namespace Config

/-- Why there is no configuration. -/
inductive Fault where
  /-- A key that is no key path. -/
  | badKey (f : KeyPathFault)
  /-- A value at a place where a text is wanted. -/
  | noText (found : Json.Shape) (key : String) (origin : Option String)
  /-- Another difference from what is wanted. -/
  | mismatch (m : Mismatch)
  /-- A text that is no TOML document, and the file that it comes from. -/
  | notToml (origin : Option String)
  /-- A file that is not there. -/
  | noFile (path : String)
deriving Inhabited

/-- The reason in words.  What is wrong with a text that is no TOML document is not told. -/
def Fault.message : Fault → String
  | badKey f => f.message
  | noText found key origin =>
    "invalid type: " ++ Value.describeShape found ++ ", expected a string" ++
      (if key.isEmpty then "" else " for key `" ++ key ++ "`") ++
      (origin.map (" in " ++ ·)).getD ""
  | mismatch m => m.message Value.describeShape
  | notToml _ => "TOML parse error"
  | noFile path => "configuration file \"" ++ path ++ "\" not found"

/-- A fault in the value at a key of a table. -/
def Fault.under (key : String) : Fault → Fault
  | noText found inner origin =>
    let dot := if inner.isEmpty || inner.front == '[' then "" else "."
    noText found (key ++ dot ++ inner) origin
  | f => f

/-- A fault in an item of a list. -/
def Fault.underItem (index : Nat) : Fault → Fault
  | noText found inner origin => noText found ("[" ++ toString index ++ "]" ++ inner) origin
  | f => f

/-- The text of a value. -/
def readText : Value → Except Fault String
  | .string s => .ok s
  | .boolean b => .ok (toString b)
  | .integer i => .ok (toString i)
  | .float x => .ok (Decimal.fullLayout.write x)
  | .nil => .error (.noText .null "" none)
  | .list origin _ => .error (.noText .sequence "" origin)
  | .table origin _ => .error (.noText .map "" origin)

/-- A text that may be missing. -/
def readOptionalText : Value → Except Fault (Option String)
  | .nil => .ok none
  | v => some <$> readText v

/-- The items of a list. -/
def readList (v : Value) : Except Fault (List Value) :=
  match v with
  | .list _ items => .ok items
  | v => .error (.mismatch (.mistyped v.shape "a sequence"))

/-- The checks of a category. -/
def readChecks (v : Value) : Except Fault (List Check) := do
  (← readList v).mapM fun c ↦ (Check.ofJson c.toJson).mapError .mismatch

/-- The value of a field: it is read by `read` if it is there, or else `absent` is taken. -/
def field {α : Type} (entries : List (String × Value)) (key : String)
    (read : Value → Except Fault α) (absent : Except Fault α) : Except Fault α :=
  match entries.lookup key with
  | some v => (read v).mapError (.under key)
  | none => absent

/-- Refuses what has no value for a field. -/
def missing {α : Type} (key : String) : Except Fault α := .error (.mismatch (.missing key))

/-- The value of a field by its place. -/
def item {α : Type} (items : List Value) (index : Nat) (read : Value → Except Fault α)
    (absent : Except Fault α) : Except Fault α :=
  match items[index]? with
  | some v => (read v).mapError (.underItem index)
  | none => absent

/-- Refuses a list that is too short. -/
def tooShort {α : Type} (length : Nat) (expected : String) : Except Fault α :=
  .error (.mismatch (.length length expected))

/-- Where the artifacts are: a table, or a list of the values in order. -/
def readPaths : Value → Except Fault ArtifactPaths
  | .table _ es => do
    let root ← field es "root" readText (.ok ".")
    let given (key : String) := field es key (some <$> readText ·) (.ok none)
    let grammar ← given "grammar"
    let highlights ← given "highlights"
    let reference ← given "reference"
    let need (key : String) : Option String → Except Fault String
      | some s => .ok s
      | none => missing key
    return ⟨root, ← need "grammar" grammar, ← need "highlights" highlights,
      ← need "reference" reference⟩
  | .list _ items => do
    let short (n : Nat) : Except Fault String := tooShort n "struct ArtifactPaths with 4 elements"
    return ⟨← item items 0 readText (.ok "."), ← item items 1 readText (short 1),
      ← item items 2 readText (short 2), ← item items 3 readText (short 3)⟩
  | v => .error (.mismatch (.mistyped v.shape "struct ArtifactPaths"))

/-- A category: a table, or a list of the values in order. -/
def readCategory : Value → Except Fault Category
  | .table _ es => do
    let name ← field es "name" (some <$> readText ·) (.ok none)
    let description ← field es "description" readOptionalText (.ok none)
    let checks ← field es "checks" readChecks (.ok [])
    match name with
    | some name => return ⟨name, description, checks⟩
    | none => missing "name"
  | .list _ items => do
    return ⟨← item items 0 readText (tooShort 0 "struct Category with 3 elements"),
      ← item items 1 readOptionalText (.ok none), ← item items 2 readChecks (.ok [])⟩
  | v => .error (.mismatch (.mistyped v.shape "struct Category"))

/-- Categories from number `i` on. -/
def readCategoriesFrom (i : Nat) : List Value → Except Fault (List Category)
  | [] => .ok []
  | v :: vs => do
    let c ← (readCategory v).mapError (.underItem i)
    let cs ← readCategoriesFrom (i + 1) vs
    return c :: cs

/-- The categories of a configuration. -/
def readCategories (v : Value) : Except Fault (List Category) := do
  readCategoriesFrom 0 (← readList v)

/-- Reads a configuration. -/
def ofValue (v : Value) : Except Fault Config := do
  let paths ← field v.entries "artifacts" (some <$> readPaths ·) (.ok none)
  let categories ← field v.entries "categories" readCategories (.ok [])
  match paths with
  | some paths => return ⟨paths, categories⟩
  | none => missing "artifacts"

end Config

end Concord
