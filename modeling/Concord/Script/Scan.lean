import Concord.Diagnostic.Basic
import Concord.Grammar.Basic
import Concord.Script.Lexing

/-!
# Finding the declarations of a grammar script

The script is not run.  `scanScript` walks over its tokens with a stack of the delimiters that are
open, and gives some of them a role: the parentheses of the first call of `grammar`, the braces of
its configuration, and the braces of the `rules` object in that.  The keys of the `rules` object
are the declared rules, wherever `$.name` stands a rule is referred to, and the configuration
gives the grammar its name.

A script without such a call may be one that exports its rules; then the first `rules` object
anywhere is taken.
-/

set_option autoImplicit false

namespace Concord.Script

/-- Where the rules are looked for. -/
inductive Mode where
  /-- In the configuration of the call of `grammar`. -/
  | call
  /-- In the first `rules` object anywhere. -/
  | anywhere
deriving DecidableEq, Repr, Inhabited

/-- What a pair of delimiters encloses. -/
inductive Role where
  | plain | call | config | rules
deriving DecidableEq, Repr, Inhabited

/-- A delimiter that is open. -/
structure Frame where
  delimiter : Delimiter
  role : Role
  span : Span
deriving DecidableEq, Repr, Inhabited

/-- The key that a name or a quoted name stands for. -/
def Token.key? (t : Token) : Option (List Char) :=
  match t.kind with
  | .ident => some t.text
  | .string => some (t.text.drop 1).dropLast
  | _ => none

/-! ## Looking around

The tokens before a place are given latest first. -/

/-- The kind of the nearest token. -/
def nearest? (ts : List Token) : Option TokenKind := ts.head?.map (·.kind)

/-- Whether a member of an object can begin behind these tokens. -/
def atMemberStart (before : List Token) : Bool :=
  nearest? before == some (.opening .brace) || nearest? before == some .comma

/-- Whether a member's key and a colon stand right before a place, the key being `key`. -/
def followsKey (key : String) : (before : List Token) → Bool
  | colon :: name :: before =>
    colon.kind == .colon && name.key? == some key.toList && atMemberStart before
  | _ => false

/-- Whether the name of a call stands right before a place. -/
def followsName (name : String) (before : List Token) : Bool :=
  before.head?.any fun t ↦ t.kind == .ident && t.text == name.toList

/-! ## The walk -/

/-- What has been found up to a token. -/
structure ScanState where
  mode : Mode
  /-- The open delimiters, the innermost first. -/
  stack : List Frame := []
  grammar : Grammar := {}
  diagnostics : Array Diagnostic := #[]
  callSeen : Bool := false
  configSeen : Bool := false
  rulesSeen : Bool := false
deriving Repr, Inhabited

namespace ScanState

/-- The role of the innermost open delimiter. -/
def topRole (s : ScanState) : Role := (s.stack.head?.map Frame.role).getD .plain

/-- Adds a diagnostic. -/
def report (s : ScanState) (d : Diagnostic) : ScanState :=
  { s with diagnostics := s.diagnostics.push d }

/-- Opens a delimiter. -/
def push (s : ScanState) (d : Delimiter) (role : Role) (span : Span) : ScanState :=
  { s with stack := ⟨d, role, span⟩ :: s.stack }

/-- Opens a delimiter at a token and settles its role. -/
def opened (s : ScanState) (d : Delimiter) (before : List Token) (t : Token) : ScanState :=
  match d with
  | .paren =>
    if s.mode = .call ∧ !s.callSeen ∧ followsName "grammar" before then
      { s with callSeen := true }.push d .call t.span
    else s.push d .plain t.span
  | .brace =>
    if s.mode = .call ∧ s.topRole = .call ∧ !s.configSeen then
      { s with configSeen := true }.push d .config t.span
    else if (s.mode = .call → s.topRole = .config) ∧ !s.rulesSeen ∧ followsKey "rules" before then
      { s with rulesSeen := true }.push d .rules t.span
    else s.push d .plain t.span
  | .bracket => s.push d .plain t.span

/-- A remark that a delimiter is never closed. -/
def neverClosed (f : Frame) (related : List RelatedNote) : Diagnostic where
  kind := .unbalancedDelimiter
  span := f.span
  message := "`" ++ f.delimiter.opener.toString ++ "` is never closed"
  related := related

/-- Closes the innermost open delimiter of a kind.  Those that are open within it are never
closed; if there is none of the kind, the closer has no opener. -/
def closed (s : ScanState) (d : Delimiter) (t : Token) : ScanState :=
  match s.stack.dropWhile (·.delimiter ≠ d) with
  | [] => s.report
    { kind := .unbalancedDelimiter
      span := t.span
      message := "`" ++ String.ofList t.text ++ "` has no matching opener" }
  | _ :: outer =>
    let skipped := (s.stack.takeWhile (·.delimiter ≠ d)).reverse
    let notes := skipped.map (neverClosed · [⟨"enclosing delimiter closed here", t.span⟩])
    { s with stack := outer, diagnostics := s.diagnostics ++ notes.toArray }

/-- Declares a rule where a key of the `rules` object stands. -/
def declaration (s : ScanState) (before : List Token) (t : Token) (after : List Token) :
    ScanState :=
  if s.topRole = .rules ∧ atMemberStart before ∧
      (nearest? after = some .colon ∨ nearest? after = some (.opening .paren)) then
    match t.key? with
    | none => s
    | some key =>
      let name := String.ofList key
      let (grammar, previous) := s.grammar.declare ⟨name, some t.span⟩
      let s := { s with grammar }
      match previous with
      | none => s
      | some first => s.report
        { kind := .duplicateRule
          span := t.span
          message := "rule `" ++ name ++ "` is declared more than once"
          related := first.span.toList.map (⟨"previously declared here", ·⟩) }
  else s

/-- Names the grammar where the configuration has the key `name` and a string behind it. -/
def grammarName (s : ScanState) (before : List Token) (t : Token) (after : List Token) :
    ScanState :=
  if s.topRole = .config ∧ t.kind = .ident ∧ t.text = "name".toList ∧ atMemberStart before then
    match after with
    | colon :: value :: _ =>
      if colon.kind = .colon ∧ value.kind = .string then
        { s with grammar := { s.grammar with name := value.key?.map String.ofList } }
      else s
    | _ => s
  else s

/-- Refers to a rule where `$.name` stands. -/
def reference (s : ScanState) (t : Token) (after : List Token) : ScanState :=
  if t.kind = .ident ∧ t.text = ['$'] then
    match after with
    | dot :: name :: _ =>
      if dot.kind = .dot ∧ name.kind = .ident then
        { s with grammar := s.grammar.refer (String.ofList name.text) }
      else s
    | _ => s
  else s

/-- Goes past one token, between the tokens before it and those behind it. -/
def step (s : ScanState) (before : List Token) (t : Token) (after : List Token) : ScanState :=
  match t.kind with
  | .opening d => s.opened d before t
  | .closing d => s.closed d t
  | .ident | .string =>
    ((s.declaration before t after).grammarName before t after).reference t after
  | _ => s

/-- Goes past all tokens that are left. -/
def run (s : ScanState) (before : List Token) : List Token → ScanState
  | [] => s
  | t :: after => run (s.step before t after) (t :: before) after

/-- What is said if there is no `rules` object. -/
def missingRules (mode : Mode) : Diagnostic where
  kind := .missingRulesObject
  span := .emptyAt 0
  message := match mode with
    | .call => "the `grammar(...)` configuration has no `rules` object"
    | .anywhere => "no `grammar(...)` call and no `rules` object found"

/-- All diagnostics at the end of the script. -/
def finish (s : ScanState) : List Diagnostic :=
  s.diagnostics.toList ++ s.stack.reverse.map (neverClosed · []) ++
    if s.rulesSeen then [] else [missingRules s.mode]

end ScanState

/-- Walks over the tokens of a script. -/
def scanTokens (tokens : List Token) : ScanState :=
  let s := ScanState.run { mode := .call } [] tokens
  if s.callSeen then s else ScanState.run { mode := .anywhere } [] tokens

/-- The grammar that a script defines, and what is wrong with the script. -/
def scanScript (source : String) : Grammar × List Diagnostic :=
  let s := scanTokens (tokenize source)
  (s.grammar, s.finish)

end Concord.Script
