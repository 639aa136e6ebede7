import Concord.Query.Report
import Concord.Query.Tree

/-!
# Productions of the query grammar

```text
root      = pattern*
pattern   = atom quantifier? capture*
atom      = tree | group | predicate | alternation | string | "_" | "." | field | "!" name
tree      = "(" (name | "_") ("/" name)? pattern* ")"
group     = "(" pattern+ ")"
predicate = "(" predicate-name (capture | string | name | "_")* ")"
field     = name ":" pattern
```

A production reads significant lexemes and always succeeds: it answers the trees that it built,
the problems that it met, and the lexemes that it left.  What fits no production is wrapped in an
error node.  Patterns nest at most `maxDepth` deep; one level deeper, an error node takes all the
rest.  The production of patterns recurses on the levels that are left, and every other production
gets the production of its inner patterns as an argument.
-/

set_option autoImplicit false

namespace Concord.Query

/-- What a production makes of the lexemes in front of it. -/
structure Parsed where
  trees : List (Tree Lexeme)
  reports : List Report
  rest : List Lexeme
deriving Repr

/-- A way to read the front of a list of lexemes. -/
abbrev Production := List Lexeme → Parsed

/-- Reads on behind what is parsed already. -/
def Parsed.andThen (p : Parsed) (next : Production) : Parsed :=
  let q := next p.rest
  ⟨p.trees ++ q.trees, p.reports ++ q.reports, q.rest⟩

/-- Puts all that was built into one node. -/
def Parsed.wrap (kind : NodeKind) (p : Parsed) : Parsed :=
  { p with trees := [.node kind p.trees] }

namespace Production

/-! ## Building blocks -/

/-- Reads nothing. -/
def nothing : Production := fun ls ↦ ⟨[], [], ls⟩

/-- Takes one lexeme, if there is one. -/
def token : Production
  | [] => nothing []
  | l :: ls => ⟨[.leaf l], [], ls⟩

/-- Reports a problem at the next lexeme, or at the end of the text. -/
def report (problem : Problem) : Production := fun ls ↦ ⟨[], [⟨ls.length, problem⟩], ls⟩

/-- Reads one production behind the other. -/
def seq : List Production → Production
  | [] => nothing
  | p :: ps => fun ls ↦ (p ls).andThen (seq ps)

/-- Reads a production into a node. -/
def node (kind : NodeKind) (p : Production) : Production := fun ls ↦ (p ls).wrap kind

/-- The kind of the next lexeme. -/
def kindAhead (ls : List Lexeme) : Option TokenKind := ls.head?.map Lexeme.kind

/-- Takes a lexeme of the given kind if it is next. -/
def optional (kind : TokenKind) : Production := fun ls ↦
  if kindAhead ls = some kind then token ls else nothing ls

/-- Takes a lexeme of the given kind, or reports that it is missing. -/
def expect (kind : TokenKind) (problem : Problem) : Production := fun ls ↦
  if kindAhead ls = some kind then token ls else report problem ls

/-- Reports the next lexeme and wraps it in an error node. -/
def stray (problem : Problem) : Production := seq [report problem, node .error token]

/-- Repeats `item`, which gets to see the kind of the next lexeme, at most once for each element
of `fuel`. -/
def manyWithin (stop : TokenKind → Bool) (item : TokenKind → Production) :
    (fuel : List Lexeme) → Production
  | [] => nothing
  | _ :: fuel => fun ls ↦ match ls with
    | [] => nothing []
    | l :: ls =>
      if stop l.kind then nothing (l :: ls)
      else (item l.kind (l :: ls)).andThen (manyWithin stop item fuel)

/-- Repeats `item`, which gets to see the kind of the next lexeme, until `stop` holds of that kind
or the lexemes end.  An item takes at least one lexeme, so there are no more items than lexemes. -/
def many (stop : TokenKind → Bool) (item : TokenKind → Production) : Production :=
  fun ls ↦ manyWithin stop item ls ls

/-- Takes the closing lexeme of what was opened at `opener`, or reports that it is missing. -/
def close (kind : TokenKind) (problem : Nat → Problem) (opener : List Lexeme) : Production :=
  fun ls ↦ if kindAhead ls = some kind then token ls else report (problem opener.length) ls

/-! ## Recovery -/

/-- Takes unmatched text, which is either an unclosed string or nothing known. -/
def garbage : Production
  | [] => nothing []
  | l :: ls =>
    if l.text.head? = some '"' then stray .unclosedString (l :: ls)
    else stray (.unexpectedText (String.ofList l.text)) (l :: ls)

/-- Takes a lexeme that begins no pattern. -/
def strayToken (kind : TokenKind) : Production :=
  match kind with
  | .captureName => stray .captureWithoutTarget
  | .parenClose => stray .unmatchedParen
  | .bracketClose => stray .unmatchedBracket
  | .garbage => garbage
  | _ => stray .unexpectedToken

/-! ## Atoms -/

/-- A quoted string. -/
def str : Production :=
  node .str <| seq [token, optional .strVal, expect .quote .expectedClosingQuote]

/-- `!name` -/
def negatedField : Production :=
  node .negatedField <| seq [token, expect .ident .expectedFieldName]

/-- A name that is no field: it would have to stand in parentheses. -/
def bareName : Production
  | [] => nothing []
  | l :: ls => stray (.bareName (String.ofList l.text)) (l :: ls)

/-- One argument of a predicate. -/
def argument (kind : TokenKind) : Production :=
  match kind with
  | .captureName | .ident | .underscore => token
  | .quote => str
  | .garbage => garbage
  | _ => stray .badArgument

/-- The arguments of a predicate, up to a closing parenthesis. -/
def arguments : Production := many (· = .parenClose) argument

section Nested

variable (pattern : Production)

/-- `name: pattern` -/
def field : Production :=
  node .field <| seq [token, token, fun ls ↦
    if (kindAhead ls).any TokenKind.startsPattern then pattern ls
    else report .expectedFieldValue ls]

/-- Patterns up to a closing lexeme. -/
def patterns (stop : TokenKind → Bool) : Production :=
  many stop fun kind ↦ if kind.startsPattern then pattern else strayToken kind

/-- The subtype behind a node type. -/
def subtype : Production := fun ls ↦
  if kindAhead ls = some .slash then seq [token, expect .ident .expectedSubtype] ls
  else nothing ls

/-- What stands between the parentheses, and the kind of node that this makes. -/
def parenBody (ls : List Lexeme) : NodeKind × Production :=
  match kindAhead ls with
  | none => (.tree, nothing)
  | some .parenClose => (.tree, report .emptyTree)
  | some .ident | some .underscore =>
    (.tree, seq [token, subtype, patterns pattern (· = .parenClose)])
  | some .predicateName => (.predicate, seq [token, arguments])
  | some kind =>
    if kind.startsPattern then (.group, patterns pattern (· = .parenClose))
    else (.tree, seq [report .expectedNodeType, patterns pattern (· = .parenClose)])

/-- A tree, a group or a predicate in parentheses. -/
def paren : Production := fun ls ↦
  let (kind, body) := parenBody pattern ls.tail
  node kind (seq [token, body, close .parenClose .unclosedTree ls]) ls

/-- `[pattern ...]` -/
def alternation : Production := fun ls ↦
  node .alternation (seq [token, patterns pattern (· = .bracketClose),
    close .bracketClose .unclosedAlternation ls]) ls

/-- A pattern without its quantifier and captures. -/
def atom : Production := fun ls ↦
  match kindAhead ls with
  | some .parenOpen => paren pattern ls
  | some .bracketOpen => alternation pattern ls
  | some .quote => str ls
  | some .underscore => node .wildcard token ls
  | some .dot => node .anchor token ls
  | some .bang => negatedField ls
  | some .ident =>
    if kindAhead ls.tail = some .colon then field pattern ls else bareName ls
  | _ => stray .unexpectedToken ls

end Nested

/-! ## Patterns -/

/-- Wraps what is parsed in a quantifier, if one follows. -/
def quantified (p : Parsed) : Parsed :=
  if (kindAhead p.rest).any TokenKind.isQuantifier then (p.andThen token).wrap .quantifier else p

/-- Wraps what is parsed in the captures that follow, if there are any. -/
def captured (p : Parsed) : Parsed :=
  if kindAhead p.rest = some .captureName then
    Parsed.wrap .capture
      ⟨p.trees ++ (p.rest.takeWhile (·.kind = .captureName)).map .leaf, p.reports,
        p.rest.dropWhile (·.kind = .captureName)⟩
  else p

/-- Takes all that is left into an error node. -/
def swallow : Production := fun ls ↦
  ⟨[.node .error (ls.map .leaf)], [⟨ls.length, .tooDeep⟩], []⟩

/-- A pattern that may nest `levels` deep. -/
def pattern : Nat → Production
  | 0 => swallow
  | levels + 1 => fun ls ↦ captured (quantified (atom (pattern levels) ls))

/-- How deep patterns may nest. -/
def maxDepth : Nat := 256

/-- The patterns of a whole text. -/
def root : Production := patterns (pattern maxDepth) fun _ ↦ false

end Production

end Concord.Query
