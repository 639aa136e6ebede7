import Concord.Json.Value
import Concord.Toml.Value

/-!
# Values of a configuration

A value of a configuration remembers the file that it comes from where a message may need it.
-/

set_option autoImplicit false

namespace Concord.Config

/-- A value of a configuration, with the file of a list or a table. -/
inductive Value where
  | nil
  | boolean (b : Bool)
  | integer (i : Int)
  | float (x : Float)
  | string (s : String)
  | list (origin : Option String) (items : List Value)
  | table (origin : Option String) (entries : List (String × Value))
deriving Inhabited

namespace Value

/-- A table without entries that no file has. -/
def empty : Value := table none []

/-- The entries of a table. -/
def entries : Value → List (String × Value)
  | table _ es => es
  | _ => []

mutual

/-- A value of a document from a file. -/
def ofToml (origin : Option String) : Toml.Value → Value
  | .string s => string s
  | .integer i => integer i
  | .float x => float x
  | .boolean b => boolean b
  | .time text => string text
  | .list _ items => list origin (ofTomlItems origin items)
  | .table _ es => table origin (ofTomlEntries origin es)

/-- The values of a list. -/
def ofTomlItems (origin : Option String) : List Toml.Value → List Value
  | [] => []
  | v :: vs => ofToml origin v :: ofTomlItems origin vs

/-- The entries of a table. -/
def ofTomlEntries (origin : Option String) : List (String × Toml.Value) → List (String × Value)
  | [] => []
  | (k, v) :: es => (k, ofToml origin v) :: ofTomlEntries origin es

end

/-- An integer as a number. -/
def number (i : Int) : Json.Number := if i < 0 then .negative i.natAbs else .natural i.natAbs

mutual

/-- The same value without its origin, with the entries of tables in the order of their keys. -/
def toJson : Value → Json.Value
  | nil => .null
  | boolean b => .bool b
  | integer i => .number (number i)
  | float x => .number (.float x)
  | string s => .string s
  | list _ items => .list (toJsonItems items)
  | table _ es => .object (toJsonEntries es)

/-- The values of a list. -/
def toJsonItems : List Value → List Json.Value
  | [] => []
  | v :: vs => toJson v :: toJsonItems vs

/-- The entries of a table. -/
def toJsonEntries : List (String × Value) → List (String × Json.Value)
  | [] => []
  | (k, v) :: es => Json.Value.putMember k (toJson v) (toJsonEntries es)

end

/-- The shape of a value. -/
def shape (v : Value) : Json.Shape := v.toJson.shape

/-- A shape in messages about the configuration. -/
def describeShape : Json.Shape → String
  | .null => "unit value"
  | .number (.float x) =>
    "floating point `" ++ (⟨none, true⟩ : Decimal.Layout).write x ++ "`"
  | s => s.describe

end Value

end Concord.Config
