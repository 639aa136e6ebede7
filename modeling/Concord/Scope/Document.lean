import Concord.Json.Value
import Concord.Scope.Basic

/-!
# Reference grammars as JSON documents

A reference grammar nests rules: the root and every rule hold containers, and a container holds
rules.  `ScopeTree` keeps the names and the containers; all else in the document is skipped.  The
containers of an object stand in a fixed order (`Container.rank`), whatever the order in the
document, and the declarations of the grammar follow that order.

A rule must be an object, and a known member must have its shape, or the document is turned down.
-/

set_option autoImplicit false

namespace Concord

open Json (Fault Key Node)

/-- The kinds of containers. -/
inductive Container where
  | captures | beginCaptures | endCaptures | whileCaptures | patterns | repository | injections
deriving DecidableEq, Repr, Inhabited

namespace Container

/-- The place of the container among those of one object. -/
def rank : Container → Nat
  | captures => 0
  | beginCaptures => 1
  | endCaptures => 2
  | whileCaptures => 3
  | patterns => 4
  | repository => 5
  | injections => 6

/-- The key of the container. -/
def label : Container → String
  | captures => "captures"
  | beginCaptures => "beginCaptures"
  | endCaptures => "endCaptures"
  | whileCaptures => "whileCaptures"
  | patterns => "patterns"
  | repository => "repository"
  | injections => "injections"

end Container

/-- The place of a rule in its container: patterns are numbered, and all other rules have keys. -/
inductive Slot where
  | index (i : Nat)
  | key (k : String)
deriving DecidableEq, Repr, Inhabited

/-- The slot as a part of a path. -/
def Slot.label : Slot → String
  | index i => "[" ++ toString i ++ "]"
  | key k => "." ++ k

/-- The names that an object gives. -/
structure ScopeNames where
  name : Option String := none
  contentName : Option String := none
  scopeName : Option String := none
deriving DecidableEq, Repr, Inhabited

/-- The name with a key. -/
def ScopeNames.get? (names : ScopeNames) : ScopeKey → Option String
  | .name => names.name
  | .contentName => names.contentName
  | .scopeName => names.scopeName

/-- Sets the name with a key. -/
def ScopeNames.set (names : ScopeNames) (value : Option String) : ScopeKey → ScopeNames
  | .name => { names with name := value }
  | .contentName => { names with contentName := value }
  | .scopeName => { names with scopeName := value }

/-- A reference grammar or a rule of it. -/
inductive ScopeTree where
  | node (names : ScopeNames) (groups : List (Container × List (Slot × ScopeTree)))
deriving Inhabited

/-- The rules in one container. -/
abbrev Group := Container × List (Slot × ScopeTree)

/-! ## Reading -/

/-- What an object can be. -/
inductive Level where
  | root | rule
deriving DecidableEq, Repr

/-- A member that is read. -/
inductive Field where
  | name (key : ScopeKey)
  | group (c : Container)
deriving DecidableEq, Repr

/-- The member with a key, of an object of some level. -/
def Level.field? : Level → String → Option Field
  | _, "name" => some (.name .name)
  | root, "scopeName" => some (.name .scopeName)
  | rule, "contentName" => some (.name .contentName)
  | _, "patterns" => some (.group .patterns)
  | _, "repository" => some (.group .repository)
  | root, "injections" => some (.group .injections)
  | rule, "captures" => some (.group .captures)
  | rule, "beginCaptures" => some (.group .beginCaptures)
  | rule, "endCaptures" => some (.group .endCaptures)
  | rule, "whileCaptures" => some (.group .whileCaptures)
  | _, _ => none

/-- Puts a container where it belongs among those of an object. -/
def putGroup (g : Group) : List Group → List Group
  | [] => [g]
  | h :: hs => if h.1.rank < g.1.rank then h :: putGroup g hs else g :: h :: hs

/-- Puts a rule in the place of the one with its key, or behind all rules. -/
def putRule (slot : Slot) (t : ScopeTree) : List (Slot × ScopeTree) → List (Slot × ScopeTree)
  | [] => [(slot, t)]
  | (s, u) :: rs => if s = slot then (s, t) :: rs else (s, u) :: putRule slot t rs

namespace ScopeTree

mutual

/-- Reads a grammar or a rule; at most `room` lists and objects may lie in one another. -/
def ofNode (level : Level) (room : Nat) : Node → Except Fault ScopeTree
  | .object start members finish => do
    let room ← Json.goInto room start
    let t ← ofMembers level room [] {} [] members
    finish.check
    return t
  | n => .error (n.mistyped "a JSON object")

/-- Reads members, together with what was read before; `seen` are the keys of that. -/
def ofMembers (level : Level) (room : Nat) (seen : List String) (names : ScopeNames)
    (groups : List Group) : List (Key × Node) → Except Fault ScopeTree
  | [] => .ok (.node names groups)
  | (key, n) :: ms => do
    let k ← key.text
    match level.field? k with
    | none =>
      n.skip
      ofMembers level room seen names groups ms
    | some field =>
      if k ∈ seen then .error ⟨.repeated k, key.refusal⟩
      else
        match field with
        | .name nameKey =>
          let value ← n.optionalText
          ofMembers level room (k :: seen) (names.set value nameKey) groups ms
        | .group .patterns =>
          let rules ← listedRules room n
          ofMembers level room (k :: seen) names (putGroup (.patterns, rules) groups) ms
        | .group c =>
          let rules ← keyedRules room n
          ofMembers level room (k :: seen) names (putGroup (c, rules) groups) ms

/-- Reads a list of rules. -/
def listedRules (room : Nat) : Node → Except Fault (List (Slot × ScopeTree))
  | .list start items finish => do
    let room ← Json.goInto room start
    let rules ← ofItems room 0 items
    finish.check
    return rules
  | n => .error (n.mistyped "a sequence")

/-- Reads the rules of a list from number `i` on. -/
def ofItems (room i : Nat) : List Node → Except Fault (List (Slot × ScopeTree))
  | [] => .ok []
  | n :: ns => do
    let t ← ofNode .rule room n
    let ts ← ofItems room (i + 1) ns
    return (.index i, t) :: ts

/-- Reads rules that have keys. -/
def keyedRules (room : Nat) : Node → Except Fault (List (Slot × ScopeTree))
  | .object start members finish => do
    let room ← Json.goInto room start
    let rules ← ofEntries room [] members
    finish.check
    return rules
  | n => .error (n.mistyped "a map")

/-- Reads rules that have keys, behind those that were read before. -/
def ofEntries (room : Nat) (before : List (Slot × ScopeTree)) :
    List (Key × Node) → Except Fault (List (Slot × ScopeTree))
  | [] => .ok before
  | (key, n) :: ms => do
    let k ← key.text
    let t ← ofNode .rule room n
    ofEntries room (putRule (.key k) t before) ms

end

/-! ## Declarations -/

/-- The declaration by a key of the object at a path, if the object has it. -/
def declare (names : ScopeNames) (path : String) (key : ScopeKey) : List ScopeDecl :=
  match names.get? key with
  | some value => [⟨value, key, path⟩]
  | none => []

mutual

/-- What a rule at a path and the rules in it declare. -/
def declarations (path : String) : ScopeTree → List ScopeDecl
  | node names groups =>
    declare names path .name ++ declare names path .contentName ++
      groupDeclarations (path ++ ".") groups

/-- What the rules in containers declare, whose paths begin with `front`. -/
def groupDeclarations (front : String) : List (Container × List (Slot × ScopeTree)) → List ScopeDecl
  | [] => []
  | (c, rules) :: gs =>
    ruleDeclarations (front ++ c.label) rules ++ groupDeclarations front gs

/-- What the rules in the container at a path declare. -/
def ruleDeclarations (path : String) : List (Slot × ScopeTree) → List ScopeDecl
  | [] => []
  | (slot, t) :: rs => declarations (path ++ slot.label) t ++ ruleDeclarations path rs

end

/-- The grammar with a root. -/
def grammar : ScopeTree → ScopeGrammar
  | node names groups =>
    ⟨names.name, names.scopeName,
      declare names "scopeName" .scopeName ++ groupDeclarations "" groups⟩

end ScopeTree

/-- Reads a reference grammar. -/
def ScopeGrammar.ofJson (source : String) : Except Fault ScopeGrammar :=
  ScopeTree.grammar <$> (Json.Document.read source).decode (ScopeTree.ofNode .root Json.deepest)

end Concord
