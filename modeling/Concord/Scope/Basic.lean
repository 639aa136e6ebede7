import Concord.Unicode.Class

/-!
# Scopes

A scope is a name of segments with dots between them, such as `keyword.other`.  A reference
grammar declares scopes; each declaration says where it stands and may name several scopes with
white space between them.
-/

set_option autoImplicit false

namespace Concord

/-- The keys that declare scopes. -/
inductive ScopeKey where
  | name | contentName | scopeName
deriving DecidableEq, Repr, Inhabited

/-- The key as it is written. -/
def ScopeKey.label : ScopeKey → String
  | name => "name"
  | contentName => "contentName"
  | scopeName => "scopeName"

/-- A scope-declaring value and the place of the object that holds it. -/
structure ScopeDecl where
  value : String
  key : ScopeKey
  path : String
deriving DecidableEq, Repr, Inhabited

/-- The words of a text, which white space separates; `word` is the word being read, latest
character first. -/
def wordsFrom (word : List Char) : List Char → List (List Char)
  | [] => if word.isEmpty then [] else [word.reverse]
  | c :: cs =>
    if Unicode.isSpace c then
      if word.isEmpty then wordsFrom [] cs else word.reverse :: wordsFrom [] cs
    else wordsFrom (c :: word) cs

/-- The words of a text, which white space separates. -/
def words (s : String) : List String := (wordsFrom [] s.toList).map String.ofList

/-- Whether the characters of a scope are those of `front`, or go on behind them with a dot. -/
def isUnderChars : (scope front : List Char) → Bool
  | scope, [] => scope.isEmpty || scope.head? == some '.'
  | [], _ :: _ => false
  | a :: scope, b :: front => a == b && isUnderChars scope front

/-- Whether a scope is another or extends it by whole segments. -/
def isUnder (scope front : String) : Bool := isUnderChars scope.toList front.toList

namespace ScopeDecl

/-- The scopes that the declaration names. -/
def scopes (d : ScopeDecl) : List String := words d.value

/-- Whether the declaration names a scope. -/
def declares (d : ScopeDecl) (scope : String) : Bool := d.scopes.contains scope

/-- Whether some scope of the declaration is under another. -/
def isUnder (d : ScopeDecl) (front : String) : Bool := d.scopes.any (Concord.isUnder · front)

end ScopeDecl

/-- What a reference grammar declares, in document order.  Its name is for display and is no
scope. -/
structure ScopeGrammar where
  name : Option String := none
  scopeName : Option String := none
  declarations : List ScopeDecl := []
deriving DecidableEq, Repr, Inhabited

namespace ScopeGrammar

/-- Adds a declaration behind all others. -/
def push (g : ScopeGrammar) (d : ScopeDecl) : ScopeGrammar :=
  { g with declarations := g.declarations ++ [d] }

/-- The declarations that name a scope. -/
def find (g : ScopeGrammar) (scope : String) : List ScopeDecl :=
  g.declarations.filter (·.declares scope)

/-- Whether a scope is declared, by its whole name. -/
def hasScope (g : ScopeGrammar) (scope : String) : Bool := g.declarations.any (·.declares scope)

/-- The distinct scopes, in the order of their first declaration. -/
def scopes (g : ScopeGrammar) : List String := (g.declarations.flatMap ScopeDecl.scopes).eraseDups

/-- The distinct scopes under another. -/
def scopesUnder (g : ScopeGrammar) (front : String) : List String :=
  g.scopes.filter (isUnder · front)

end ScopeGrammar

end Concord
