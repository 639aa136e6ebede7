import Concord.Grammar.Basic
import Concord.Json.Value

/-!
# Grammars as JSON documents

A grammar document is an object with a name, the bodies of the rules by their names, and lists of
extra and external tokens.  Bodies are values that are only searched for symbols: an object of type
`SYMBOL` with a name refers to the rule of that name.
-/

set_option autoImplicit false

namespace Concord

open Json (Fault Key Node Value)

/-- What is read of a grammar document.  The rules stand in the order in which their names first
occur, each with its last body. -/
structure GrammarDocument where
  name : Option String := none
  rules : List (String × Value) := []
  extras : List Value := []
  externals : List Value := []
deriving Inhabited

namespace GrammarDocument

/-- The fields of a grammar document that are read. -/
inductive Field where
  | name | rules | extras | externals
deriving DecidableEq, Repr

/-- The field with a name. -/
def Field.ofName? : String → Option Field
  | "name" => some name
  | "rules" => some rules
  | "extras" => some extras
  | "externals" => some externals
  | _ => none

/-- Puts the body of a rule in the place of the one with its name, or behind all bodies. -/
def putBody (name : String) (body : Value) : List (String × Value) → List (String × Value)
  | [] => [(name, body)]
  | (n, b) :: rs => if n = name then (n, body) :: rs else (n, b) :: putBody name body rs

/-- Reads the bodies of rules, behind those that were read before. -/
def bodies (room : Nat) (before : List (String × Value)) :
    List (Key × Node) → Except Fault (List (String × Value))
  | [] => .ok before
  | (key, n) :: ms => do
    let name ← key.text
    let body ← n.value room
    bodies room (putBody name body before) ms

/-- Reads the bodies of all rules. -/
def rulesOfNode (room : Nat) : Node → Except Fault (List (String × Value))
  | .object start members finish => do
    let room ← Json.goInto room start
    let rs ← bodies room [] members
    finish.check
    return rs
  | n => .error (n.mistyped "a map")

/-- Reads a list of tokens. -/
def tokensOfNode (room : Nat) : Node → Except Fault (List Value)
  | .list start items finish => do
    let room ← Json.goInto room start
    let vs ← Node.values room items
    finish.check
    return vs
  | n => .error (n.mistyped "a sequence")

/-- Reads one field. -/
def setField (room : Nat) (d : GrammarDocument) (n : Node) :
    Field → Except Fault GrammarDocument
  | .name => do return { d with name := ← n.optionalText }
  | .rules => do return { d with rules := ← rulesOfNode room n }
  | .extras => do return { d with extras := ← tokensOfNode room n }
  | .externals => do return { d with externals := ← tokensOfNode room n }

/-- Reads members; `seen` are the fields that were read before.  Also answers all fields that were
read. -/
def setMembers (room : Nat) (seen : List Field) (d : GrammarDocument) :
    List (Key × Node) → Except Fault (List Field × GrammarDocument)
  | [] => .ok (seen, d)
  | (key, n) :: ms => do
    let name ← key.text
    match Field.ofName? name with
    | none =>
      n.skip
      setMembers room seen d ms
    | some field =>
      if field ∈ seen then .error ⟨.repeated name, key.refusal⟩
      else
        let d ← setField room d n field
        setMembers room (field :: seen) d ms

/-- Reads a grammar document.  It must have rules. -/
def ofNode : Node → Except Fault GrammarDocument
  | .object start members finish => do
    let room ← Json.goInto Json.deepest start
    let (seen, d) ← setMembers room [] {} members
    match finish with
    | .broken b => .error b.building
    | .closed stop =>
      if .rules ∈ seen then return d else .error ⟨.missing "rules", stop⟩
  | n => .error (n.mistyped "a JSON object")

/-- The name that an object with these members refers to, if it is a symbol. -/
def ownSymbol (members : List (String × Value)) : List String :=
  match members.lookup "type", members.lookup "name" with
  | some (.string "SYMBOL"), some (.string name) => [name]
  | _, _ => []

mutual

/-- The names that a value refers to, in the order of its members. -/
def symbols : Value → List String
  | .object members => ownSymbol members ++ symbolsOfMembers members
  | .list items => symbolsOfItems items
  | _ => []

/-- The names that values refer to. -/
def symbolsOfItems : List Value → List String
  | [] => []
  | v :: vs => symbols v ++ symbolsOfItems vs

/-- The names that the values of members refer to. -/
def symbolsOfMembers : List (String × Value) → List String
  | [] => []
  | (_, v) :: ms => symbols v ++ symbolsOfMembers ms

end

/-- The grammar of a document: it declares all rules before it refers to any. -/
def grammar (d : GrammarDocument) : Grammar :=
  let declared := d.rules.foldl (fun g r ↦ (g.declare ⟨r.1, none⟩).1) { name := d.name }
  let names := symbolsOfItems (d.rules.map Prod.snd ++ d.extras ++ d.externals)
  names.foldl Grammar.refer declared

end GrammarDocument

/-- Reads the grammar of a grammar document. -/
def Grammar.ofJson (source : String) : Except Fault Grammar :=
  GrammarDocument.grammar <$> (Json.Document.read source).decode GrammarDocument.ofNode

end Concord
