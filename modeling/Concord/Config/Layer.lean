import Concord.Config.Basic
import Concord.Config.Default
import Concord.Files.Text
import Concord.Toml.Document

/-!
# Layers of a configuration

A configuration is built from layers.  Documents are put over one another in their order: tables
are merged, and anything else is replaced.  Single settings come over all documents, wherever they
stand among the layers, and of settings with one key the last counts.
-/

set_option autoImplicit false

namespace Concord.Config

open Files (Entry Lookup)

/-- A part of a configuration. -/
inductive Layer where
  /-- The text of a document. -/
  | text (source : String)
  /-- A file that holds a document.  One that is not required may be missing. -/
  | file (path : String) (required : Bool)
  /-- A single setting. -/
  | setting (key : String) (value : Value)
deriving Inhabited

/-! ## Settings -/

/-- The settings among layers with their key paths. -/
def settings : List Layer → Except Fault (List (KeyPath × Value))
  | [] => .ok []
  | .setting key value :: ls => do
    let path ← (KeyPath.parse key).mapError .badKey
    let rest ← settings ls
    return (path, value) :: rest
  | _ :: ls => settings ls

/-- Keeps of settings with one key path the last. -/
def lastSettings : List (KeyPath × Value) → List (KeyPath × Value)
  | [] => []
  | s :: ss => if ss.any (·.1 == s.1) then lastSettings ss else s :: lastSettings ss

/-- Puts settings over a configuration. -/
def applySettings (root : Value) (ss : List (KeyPath × Value)) : Value :=
  ss.foldl (fun root s ↦ root.set s.1 s.2) root

/-! ## Documents -/

/-- Puts an entry of a document over a configuration.  A key that is a key path names a place, and
any other key an entry. -/
def applyEntry (root : Value) (e : String × Value) : Value :=
  match KeyPath.parse e.1 with
  | .ok path => root.set path e.2
  | .error _ => root.set ⟨e.1, []⟩ e.2

/-- Puts the entries of a document over a configuration. -/
def applyDocument (root : Value) (entries : List (String × Value)) : Value :=
  entries.foldl applyEntry root

/-- The entries of a document. -/
def documentEntries (origin : Option String) (source : String) :
    Except Fault (List (String × Value)) :=
  match Toml.read source with
  | some es => .ok (Value.ofTomlEntries origin es)
  | none => .error (.notToml origin)

/-- A path, from behind, without slashes and dots at its end that do not change the place. -/
def trimBack : List Char → List Char
  | '/' :: cs => trimBack cs
  | '.' :: '/' :: cs => trimBack cs
  | cs => cs

/-- The other path at which a file may be: the same with the extension of documents behind it. -/
def otherPath? (path : String) : Option String :=
  match (Path.parts path).getLast? with
  | none | some ['.', '.'] => none
  | some _ => some (String.ofList (trimBack path.toList.reverse).reverse ++ ".toml")

/-- A file that is there, and its path. -/
def fileAt (path : String) : Lookup (Option (String × ByteArray)) := do
  match ← Lookup.entry path with
  | .file bytes => return some (path, bytes)
  | _ => return none

/-- A file at a path or at the other one that it may have. -/
def findFile (path : String) : Lookup (Option (String × ByteArray)) := do
  match ← fileAt path with
  | some found => return some found
  | none =>
    match otherPath? path with
    | some other => fileAt other
    | none => return none

/-- A path as it is named in messages. -/
def originOf (path : String) : String :=
  String.intercalate "/" ((Path.parts path).map String.ofList)

/-- The text of a file without the byte order mark in front. -/
def fileText (bytes : ByteArray) : String :=
  let mark : List UInt8 := [0xEF, 0xBB, 0xBF]
  Files.textOrReplacement
    (if (bytes.extract 0 3).toList = mark then bytes.extract 3 bytes.size else bytes)

/-- Puts the documents among layers over a configuration, in order. -/
def applyLayers (root : Value) : List Layer → ExceptT Fault Lookup Value
  | [] => return root
  | .setting _ _ :: ls => applyLayers root ls
  | .text source :: ls => do
    let es ← ExceptT.mk (pure (documentEntries none source))
    applyLayers (applyDocument root es) ls
  | .file path required :: ls => do
    match ← ExceptT.lift (findFile path) with
    | some (found, bytes) =>
      let es ← ExceptT.mk (pure (documentEntries (some (originOf found)) (fileText bytes)))
      applyLayers (applyDocument root es) ls
    | none => if required then throw (.noFile path) else applyLayers root ls

/-- Builds a configuration from layers over a first value. -/
def build (first : Value) (layers : List Layer) : ExceptT Fault Lookup Config := do
  let ss ← ExceptT.mk (pure (settings layers))
  let root ← applyLayers first layers
  ExceptT.mk (pure (ofValue (applySettings root (lastSettings ss))))

end Concord.Config
