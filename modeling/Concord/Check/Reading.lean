import Concord.Check.Basic

/-!
# Reading checks

A check is read from an object whose member `kind` says which other members count; members with
other names are ignored.  A list is read too: its first item is the kind, and the other items are
the values in order.

What is wrong is reported for the first member in the order of the names; missing values come last.
-/

set_option autoImplicit false

namespace Concord

open Json (Shape Value)

/-- How a value differs from what is wanted. -/
inductive Mismatch where
  /-- A value of another shape. -/
  | mistyped (found : Shape) (expected : String)
  /-- An object where one with a single member is wanted. -/
  | notSingle
  /-- A name that is none of those that are known. -/
  | unknownName (name : String) (known : List String)
  /-- A value that is not there. -/
  | missing (field : String)
  /-- A list that is too long or too short. -/
  | length (n : Nat) (expected : String)
deriving Repr, Inhabited

namespace Mismatch

/-- The difference in words, given how shapes are described. -/
def message (describe : Shape → String) : Mismatch → String
  | mistyped found expected => "invalid type: " ++ describe found ++ ", expected " ++ expected
  | notSingle => "invalid value: map, expected map with a single key"
  | unknownName name known =>
    "unknown variant `" ++ name ++ "`, expected one of " ++
      String.intercalate ", " (known.map fun k ↦ "`" ++ k ++ "`")
  | missing field => "missing field `" ++ field ++ "`"
  | length n expected => "invalid length " ++ toString n ++ ", expected " ++ expected

end Mismatch

/-- A number of things that stand behind one another. -/
def countOf (n : Nat) (noun : String) : String :=
  toString n ++ " " ++ noun ++ if n = 1 then "" else "s"

/-- Reads a text. -/
def readText : Value → Except Mismatch String
  | .string s => .ok s
  | v => .error (.mistyped v.shape "a string")

/-- Reads a list. -/
def readList : Value → Except Mismatch (List Value)
  | .list vs => .ok vs
  | v => .error (.mistyped v.shape "a sequence")

/-- Reads the name of a role. -/
def readRoleName (name : String) : Except Mismatch Role :=
  match Role.ofKey? name with
  | some r => .ok r
  | none => .error (.unknownName name (Role.all.map Role.key))

/-- Reads a role: a name, or an object that has the name as its only key and nothing as its
value. -/
def readRole : Value → Except Mismatch Role
  | .string name => readRoleName name
  | .object [(name, v)] => do
    let r ← readRoleName name
    match v with
    | .null => return r
    | .object [] => return r
    | v => .error (.mistyped v.shape "unit")
  | .object _ => .error .notSingle
  | v => .error (.mistyped v.shape "string or map")

namespace CheckKind

/-- Reads a kind. -/
def read : Value → Except Mismatch CheckKind
  | .string name =>
    match ofKey? name with
    | some k => .ok k
    | none => .error (.unknownName name (all.map key))
  | v => .error (.mistyped v.shape "variant identifier")

/-- Reads a value of a check as text; the name of a role is the text of a role. -/
def readField (field : String) (v : Value) : Except Mismatch String :=
  if field = "artifact" then Role.key <$> readRole v else readText v

/-- The check of a kind with the given values. -/
def build : CheckKind → (String → Except Mismatch String) → Except Mismatch Check
  | scope, value => return .scope (← value "scope")
  | rule, value => return .rule (← value "rule")
  | capture, value => return .capture (← value "node") (← value "capture")
  | predicate, value =>
    return .predicate (← value "capture") (← value "predicate") (← value "argument")
  | accepts, value => return .accepts (← value "capture") (← value "text")
  | contains, value => return .contains (← readRoleName (← value "artifact")) (← value "text")

/-- Reads the members of an object that are fields of the kind. -/
def readMembers (k : CheckKind) :
    List (String × Value) → Except Mismatch (List (String × String))
  | [] => .ok []
  | (name, v) :: ms =>
    if name ∈ k.fields then do
      let text ← readField name v
      let rest ← readMembers k ms
      return (name, text) :: rest
    else readMembers k ms

/-- What the values of the kind are called in messages. -/
def expectation (k : CheckKind) : String :=
  "struct variant Check::" ++ k.title ++ " with " ++ countOf k.fields.length "element"

/-- Reads values by their places, from number `i` on. -/
def readItems (k : CheckKind) (i : Nat) :
    (fields : List String) → List Value → Except Mismatch (List (String × String))
  | [], [] => .ok []
  | [], vs => .error (.length (i + vs.length) (countOf i "element" ++ " in sequence"))
  | _ :: _, [] => .error (.length i k.expectation)
  | field :: fields, v :: vs => do
    let text ← readField field v
    let rest ← readItems k (i + 1) fields vs
    return (field, text) :: rest

/-- The value with a name. -/
def fieldValue (texts : List (String × String)) (field : String) : Except Mismatch String :=
  match texts.lookup field with
  | some text => .ok text
  | none => .error (.missing field)

end CheckKind

namespace Check

/-- Reads a check. -/
def ofJson : Value → Except Mismatch Check
  | .object members => do
    match members.lookup "kind" with
    | none => .error (.missing "kind")
    | some v =>
      let k ← CheckKind.read v
      let texts ← k.readMembers members
      k.build (CheckKind.fieldValue texts)
  | .list [] => .error (.missing "kind")
  | .list (v :: vs) => do
    let k ← CheckKind.read v
    let texts ← k.readItems 0 k.fields vs
    k.build (CheckKind.fieldValue texts)
  | v => .error (.mistyped v.shape "internally tagged enum Check")

/-- Reads a list of checks. -/
def listOfJson (v : Value) : Except Mismatch (List Check) := do
  (← readList v).mapM ofJson

end Check

namespace Category

/-- Reads a description, which may be missing. -/
def readDescription : Value → Except Mismatch (Option String)
  | .null => .ok none
  | v => some <$> readText v

/-- Reads the value of one field into a category. -/
def setField (c : Category) (name : String) (v : Value) : Except Mismatch Category := do
  match name with
  | "name" => return { c with name := ← readText v }
  | "description" => return { c with description := ← readDescription v }
  | "checks" => return { c with checks := ← Check.listOfJson v }
  | _ => return c

/-- Reads a category from an object, or from a list of its values in order. -/
def ofJson : Value → Except Mismatch Category
  | .object members => do
    let c ← members.foldlM (fun c m ↦ setField c m.1 m.2) { name := "" }
    if (members.lookup "name").isSome then return c else .error (.missing "name")
  | .list [] => .error (.length 0 "struct Category with 3 elements")
  | .list vs => do
    let fields := ["name", "description", "checks"]
    let c ← (fields.zip vs).foldlM (fun c m ↦ setField c m.1 m.2) { name := "" }
    if vs.length ≤ fields.length then return c
    else .error (.length vs.length "fewer elements in array")
  | v => .error (.mistyped v.shape "struct Category")

/-- Reads a list of categories. -/
def listOfJson (v : Value) : Except Mismatch (List Category) := do
  (← readList v).mapM ofJson

end Category

end Concord
