import Concord.Regex.Error
import Concord.Regex.Term
import Concord.Unicode.Class

/-!
# Reading patterns

`Term.read` reads a regular expression from its text.  Groups and classes that are still open are
kept on a stack, so the text is read once from left to right and the first problem is the one that
is reported.  Where the flag `x` is set, white space and comments between symbols mean nothing;
the Boolean argument `verbose` says whether it is.

Each loop takes at least one character a turn.  The loops count their turns down from the number
of characters that are left, plus one.
-/

set_option autoImplicit false

namespace Concord.Regex

/-- What reading a piece of a pattern answers.  A reader of one piece answers the piece and the
characters behind it. -/
abbrev Reading := Except PatternError

/-! ## White space -/

/-- Drops white space and comments, at most `turns` stretches of them. -/
def skipVerbose : (turns : Nat) → List Char → List Char
  | 0, cs => cs
  | turns + 1, cs =>
    match cs.dropWhile Unicode.isSpace with
    | '#' :: cs => skipVerbose turns ((cs.dropWhile (· ≠ '\n')).drop 1)
    | cs => cs

/-- Drops what means nothing at the front of the text. -/
def skip (verbose : Bool) (cs : List Char) : List Char :=
  if verbose then skipVerbose cs.length cs else cs

/-! ## Escapes -/

/-- The value of a hexadecimal digit. -/
def hexDigit? (c : Char) : Option Nat :=
  if '0' ≤ c ∧ c ≤ '9' then some (c.toNat - '0'.toNat)
  else if 'a' ≤ c ∧ c ≤ 'f' then some (c.toNat - 'a'.toNat + 10)
  else if 'A' ≤ c ∧ c ≤ 'F' then some (c.toNat - 'A'.toNat + 10)
  else none

/-- The character with the given code point. -/
def charOf? (n : Nat) : Option Char :=
  if n.isValidChar then some (Char.ofNat n) else none

/-- Reads exactly `count` hexadecimal digits. -/
def readHexFixed (verbose : Bool) : (count value : Nat) → List Char → Reading (Nat × List Char)
  | 0, value, cs => .ok (value, cs)
  | _ + 1, _, [] => .error .escapeUnexpectedEnd
  | count + 1, value, c :: cs =>
    match hexDigit? c with
    | none => .error .hexDigit
    | some d => readHexFixed verbose count (16 * value + d) (skip verbose cs)

/-- Reads hexadecimal digits up to a closing brace. -/
def readHexBraced (verbose : Bool) : (turns : Nat) → (value : Option Nat) → List Char →
    Reading (Nat × List Char)
  | 0, _, _ => .error .escapeUnexpectedEnd
  | turns + 1, value, cs =>
    match skip verbose cs with
    | [] => .error .escapeUnexpectedEnd
    | '}' :: cs => match value with
      | none => .error .hexEmpty
      | some n => .ok (n, skip verbose cs)
    | c :: cs => match hexDigit? c with
      | none => .error .hexDigit
      | some d => readHexBraced verbose turns (some (16 * value.getD 0 + d)) cs

/-- Reads the character that a hexadecimal escape stands for, behind the letter `kind`. -/
def readHex (verbose : Bool) (kind : Char) (cs : List Char) : Reading (Literal × List Char) := do
  let literal (n : Nat) (isByte : Bool) : Reading Literal :=
    match charOf? n with
    | none => .error .hexValue
    | some c => .ok ⟨c, isByte⟩
  match skip verbose cs with
  | [] => .error .escapeUnexpectedEnd
  | '{' :: cs =>
    let (n, cs) ← readHexBraced verbose (cs.length + 1) none cs
    return (← literal n false, cs)
  | cs =>
    let (n, cs) ← readHexFixed verbose (if kind = 'x' then 2 else if kind = 'u' then 4 else 8) 0 cs
    return (← literal n (kind = 'x'), cs)

/-- Reads the characters up to a closing brace. -/
def readBraced (verbose : Bool) : (turns : Nat) → (name : List Char) → List Char →
    Reading (List Char × List Char)
  | 0, _, _ => .error .escapeUnexpectedEnd
  | turns + 1, name, cs =>
    match skip verbose cs with
    | [] => .error .escapeUnexpectedEnd
    | '}' :: cs => .ok (name.reverse, cs)
    | c :: cs => readBraced verbose turns (c :: name) cs

/-- Splits a text at the first place where `separator` stands. -/
def splitFirst? (separator : List Char) : List Char → Option (List Char × List Char)
  | [] => none
  | c :: cs =>
    if separator.isPrefixOf (c :: cs) then some ([], (c :: cs).drop separator.length)
    else (splitFirst? separator cs).map fun (a, b) ↦ (c :: a, b)

/-- The property that a name in braces stands for: a name alone, or a property and a value with
`!=`, `:` or `=` between them. -/
def PropertyName.ofBraced (name : List Char) : PropertyName :=
  match splitFirst? ['!', '='] name with
  | some (p, v) => .valued (String.ofList p) (String.ofList v) true
  | none => match splitFirst? [':'] name with
    | some (p, v) => .valued (String.ofList p) (String.ofList v) false
    | none => match splitFirst? ['='] name with
      | some (p, v) => .valued (String.ofList p) (String.ofList v) false
      | none => .plain (String.ofList name)

/-- Reads the name of a property behind `\p` or `\P`. -/
def readProperty (verbose : Bool) (cs : List Char) : Reading (PropertyName × List Char) := do
  match skip verbose cs with
  | [] => .error .escapeUnexpectedEnd
  | '{' :: cs =>
    let (name, cs) ← readBraced verbose (cs.length + 1) [] cs
    return (.ofBraced name, cs)
  | '\\' :: _ => .error .propertyInvalid
  | c :: cs => return (.plain c.toString, skip verbose cs)

/-- What an escape or a single character of a pattern can be. -/
inductive Primitive where
  | literal (l : Literal)
  | assertion (a : Assertion)
  | dot
  | short (kind : ShortClass) (negated : Bool)
  | property (name : PropertyName) (negated : Bool)
deriving Repr, Inhabited

/-- A character of the names of word boundaries. -/
def isBoundaryChar (c : Char) : Bool := c.isAlpha || c == '-'

/-- Reads the name of a word boundary, without the braces around it. -/
def readBoundaryName (verbose : Bool) : (turns : Nat) → (name : List Char) → List Char →
    Reading (List Char × List Char)
  | 0, _, _ => .error .wordBoundaryUnclosed
  | turns + 1, name, cs =>
    match cs with
    | [] => .error .wordBoundaryUnclosed
    | c :: cs =>
      if isBoundaryChar c then readBoundaryName verbose turns (c :: name) (skip verbose cs)
      else if c = '}' then .ok (name.reverse, cs)
      else .error .wordBoundaryUnclosed

/-- Reads what follows `\b`: the name of a special word boundary in braces, or nothing.  A brace
that does not begin a name is left for a counted repetition. -/
def readBoundary (verbose : Bool) (cs : List Char) : Reading (Assertion × List Char) := do
  match cs with
  | '{' :: ds =>
    match skip verbose ds with
    | [] => .error .wordBoundaryUnexpectedEnd
    | d :: ds =>
      if isBoundaryChar d then
        let (name, rest) ← readBoundaryName verbose (ds.length + 2) [] (d :: ds)
        match String.ofList name with
        | "start" => return (.wordStart, rest)
        | "end" => return (.wordEnd, rest)
        | "start-half" => return (.wordStartHalf, rest)
        | "end-half" => return (.wordEndHalf, rest)
        | _ => .error .wordBoundaryUnrecognized
      else return (.wordBoundary, cs)
  | _ => return (.wordBoundary, cs)

/-- A character of ASCII that may be escaped although it needs no escape. -/
def isEscapable (c : Char) : Bool :=
  c.toNat < 0x80 && !c.isAlphanum && c != '<' && c != '>'

/-- Reads an escape behind its backslash. -/
def readEscape (verbose : Bool) : List Char → Reading (Primitive × List Char)
  | [] => .error .escapeUnexpectedEnd
  | c :: cs =>
    if c.isDigit then .error .backreferenceUnsupported
    else if isEscapable c then .ok (.literal ⟨c, false⟩, cs)
    else match c with
      | 'x' | 'u' | 'U' => (readHex verbose c cs).map fun (l, cs) ↦ (.literal l, cs)
      | 'p' => (readProperty verbose cs).map fun (p, cs) ↦ (.property p false, cs)
      | 'P' => (readProperty verbose cs).map fun (p, cs) ↦ (.property p true, cs)
      | 'd' => .ok (.short .digit false, cs)
      | 'D' => .ok (.short .digit true, cs)
      | 's' => .ok (.short .space false, cs)
      | 'S' => .ok (.short .space true, cs)
      | 'w' => .ok (.short .word false, cs)
      | 'W' => .ok (.short .word true, cs)
      | 'a' => .ok (.literal ⟨'\x07', false⟩, cs)
      | 'f' => .ok (.literal ⟨'\x0c', false⟩, cs)
      | 't' => .ok (.literal ⟨'\t', false⟩, cs)
      | 'n' => .ok (.literal ⟨'\n', false⟩, cs)
      | 'r' => .ok (.literal ⟨'\r', false⟩, cs)
      | 'v' => .ok (.literal ⟨'\x0b', false⟩, cs)
      | 'A' => .ok (.assertion .startText, cs)
      | 'z' => .ok (.assertion .endText, cs)
      | 'b' => (readBoundary verbose cs).map fun (a, cs) ↦ (.assertion a, cs)
      | 'B' => .ok (.assertion .notWordBoundary, cs)
      | '<' => .ok (.assertion .wordStart, cs)
      | '>' => .ok (.assertion .wordEnd, cs)
      | _ => .error .escapeUnrecognized

/-! ## Bracketed classes -/

/-- The class with a name that stands between `[:` and `:]`. -/
def AsciiClass.ofName? (name : String) : Option AsciiClass :=
  match name with
  | "alnum" => some alnum
  | "alpha" => some alpha
  | "ascii" => some ascii
  | "blank" => some blank
  | "cntrl" => some cntrl
  | "digit" => some digit
  | "graph" => some graph
  | "lower" => some lower
  | "print" => some print
  | "punct" => some punct
  | "space" => some space
  | "upper" => some upper
  | "word" => some word
  | "xdigit" => some xdigit
  | _ => none

/-- Reads a named class behind its opening bracket, if it is one. -/
def readAsciiClass? (cs : List Char) : Option (ClassSet × List Char) :=
  match cs with
  | ':' :: cs =>
    let (negated, cs) := match cs with
      | '^' :: cs => (true, cs)
      | cs => (false, cs)
    match cs.dropWhile (· ≠ ':') with
    | ':' :: ']' :: rest =>
      (AsciiClass.ofName? (String.ofList (cs.takeWhile (· ≠ ':')))).map
        fun kind ↦ (.ascii kind negated, rest)
    | _ => none
  | _ => none

/-- Reads one item of a class. -/
def readClassItem (verbose : Bool) : List Char → Reading (Primitive × List Char)
  | [] => .error .classUnclosed
  | '\\' :: cs => readEscape verbose cs
  | c :: cs => .ok (.literal ⟨c, false⟩, cs)

/-- The set that an item of a class stands for. -/
def Primitive.toClassSet : Primitive → Reading ClassSet
  | .literal l => .ok (.literal l)
  | .short kind negated => .ok (.short kind negated)
  | .property name negated => .ok (.property name negated)
  | .assertion _ | .dot => .error .classEscape

/-- The end of a range that an item of a class stands for. -/
def Primitive.toBoundary : Primitive → Reading Literal
  | .literal l => .ok l
  | _ => .error .classRangeLiteral

/-- Reads an item or a range of a class. -/
def readClassRange (verbose : Bool) (cs : List Char) : Reading (ClassSet × List Char) := do
  let (first, cs) ← readClassItem verbose cs
  match skip verbose cs with
  | [] => .error .classUnclosed
  | '-' :: rest =>
    let rest := skip verbose rest
    match rest with
    | ']' :: _ | '-' :: _ => return (← first.toClassSet, skip verbose cs)
    | [] => .error .classUnclosed
    | rest =>
      let (last, cs) ← readClassItem verbose rest
      let a ← first.toBoundary
      let b ← last.toBoundary
      if b.char < a.char then .error .classRangeOrder
      else return (.range a b, cs)
  | cs => return (← first.toClassSet, cs)

/-- A class that is still open: the items read of it, latest first, and the operation that waits
for its right side. -/
structure OpenClass where
  negated : Bool
  left : Option (ClassSet × SetOperation)
  items : List ClassSet
deriving Repr, Inhabited

/-- The set read so far. -/
def OpenClass.set (k : OpenClass) : ClassSet :=
  let right := ClassSet.ofItems k.items.reverse
  match k.left with
  | none => right
  | some (left, op) => .operation op left right

/-- Adds an item to an open class. -/
def OpenClass.push (k : OpenClass) (s : ClassSet) : OpenClass := { k with items := s :: k.items }

/-- Ends the left side of an operation. -/
def OpenClass.operate (k : OpenClass) (op : SetOperation) : OpenClass :=
  { k with left := some (k.set, op), items := [] }

/-- Takes the hyphens at the front of a class, which stand for themselves. -/
def takeHyphens (verbose : Bool) :
    (turns : Nat) → OpenClass → List Char → Reading (OpenClass × List Char)
  | 0, _, _ => .error .classUnclosed
  | turns + 1, k, cs =>
    match cs with
    | [] => .error .classUnclosed
    | '-' :: cs => takeHyphens verbose turns (k.push (.literal ⟨'-', false⟩)) (skip verbose cs)
    | cs => .ok (k, cs)

/-- Reads the front of a class behind its bracket: a negation, hyphens, or a closing bracket that
stands for itself. -/
def openClass (verbose : Bool) (cs : List Char) : Reading (OpenClass × List Char) := do
  let (negated, cs) := match skip verbose cs with
    | '^' :: cs => (true, skip verbose cs)
    | cs => (false, cs)
  let (k, cs) ← takeHyphens verbose (cs.length + 1) ⟨negated, none, []⟩ cs
  match k.items, cs with
  | [], ']' :: cs =>
    match skip verbose cs with
    | [] => .error .classUnclosed
    | cs => return (k.push (.literal ⟨']', false⟩), cs)
  | _, cs => return (k, cs)

/-- Reads a class up to the bracket that closes the outermost one, where `top` is the innermost
class that is open and `outer` holds the ones around it. -/
def readClassRest (verbose : Bool) : (turns : Nat) → (top : OpenClass) →
    (outer : List OpenClass) → List Char → Reading (Term × List Char)
  | 0, _, _, _ => .error .classUnclosed
  | turns + 1, top, outer, cs =>
    match skip verbose cs with
    | [] => .error .classUnclosed
    | '[' :: cs =>
      match readAsciiClass? cs with
      | some (s, cs) => readClassRest verbose turns (top.push s) outer cs
      | none => do
        let (inner, cs) ← openClass verbose cs
        readClassRest verbose turns inner (top :: outer) cs
    | ']' :: cs =>
      match outer with
      | [] => .ok (.bracketed top.negated top.set, cs)
      | k :: outer =>
        readClassRest verbose turns (k.push (.bracketed top.negated top.set)) outer cs
    | '&' :: '&' :: cs => readClassRest verbose turns (top.operate .intersection) outer cs
    | '-' :: '-' :: cs => readClassRest verbose turns (top.operate .difference) outer cs
    | '~' :: '~' :: cs => readClassRest verbose turns (top.operate .symmetricDifference) outer cs
    | cs => do
      let (s, cs) ← readClassRange verbose cs
      readClassRest verbose turns (top.push s) outer cs

/-- Reads a class behind its opening bracket. -/
def readClass (verbose : Bool) (cs : List Char) : Reading (Term × List Char) := do
  let (top, rest) ← openClass verbose cs
  readClassRest verbose (cs.length + 1) top [] rest

/-! ## Repetitions -/

/-- Reads decimal digits with white space around them; `none` if there is no digit. -/
def readDecimal (verbose : Bool) : (turns : Nat) → (value : Option Nat) → List Char →
    Option Nat × List Char
  | 0, value, cs => (value, cs)
  | turns + 1, value, cs =>
    match cs with
    | [] => (value, [])
    | c :: rest =>
      if c.isDigit then
        readDecimal verbose turns (some (10 * value.getD 0 + (c.toNat - '0'.toNat)))
          (skip verbose rest)
      else (value, cs)

/-- Reads the number of a counted repetition. -/
def readCount (verbose : Bool) (cs : List Char) : Reading Nat × List Char :=
  let cs := cs.dropWhile Unicode.isSpace
  let (value, cs) := readDecimal verbose (cs.length + 1) none cs
  let cs := skip verbose (cs.dropWhile Unicode.isSpace)
  match value with
  | none => (.error .repetitionEmpty, cs)
  | some n => (if n < 0x100000000 then .ok n else .error .decimalInvalid, cs)

/-- The last term read, if it can be repeated, and the terms before it. -/
def popRepeatable : List Term → Reading (Term × List Term)
  | [] => .error .repetitionMissing
  | .empty :: _ => .error .repetitionMissing
  | .flags _ :: _ => .error .repetitionMissing
  | t :: ts => .ok (t, ts)

/-- Drops the mark of a lazy repetition.  Whether a text matches does not depend on it. -/
def dropLazyMark : List Char → List Char
  | '?' :: cs => cs
  | cs => cs

/-- Reads the bounds of a counted repetition behind its opening brace. -/
def readBounds (verbose : Bool) (cs : List Char) : Reading ((Nat × Option Nat) × List Char) := do
  match skip verbose cs with
  | [] => .error .repetitionUnclosed
  | cs =>
    let (least, cs) := readCount verbose cs
    let (bounds, cs) ← match cs with
      | [] => .error .repetitionUnclosed
      | ',' :: cs => match skip verbose cs with
        | [] => .error .repetitionUnclosed
        | '}' :: cs => do pure ((← least, none), '}' :: cs)
        | cs => do
          let least ← least
          let (most, cs) := readCount verbose cs
          pure ((least, some (← most)), cs)
      | cs => do
        let n ← least
        pure ((n, some n), cs)
    match cs with
    | '}' :: cs =>
      let cs := dropLazyMark (skip verbose cs)
      if bounds.2.any (· < bounds.1) then .error .repetitionOrder
      else return (bounds, cs)
    | _ => .error .repetitionUnclosed

/-! ## Groups -/

/-- What can stand among the flags of a group. -/
inductive FlagItem where
  | flag (f : Flag)
  | negation
deriving DecidableEq, Repr, Inhabited

/-- The flag with the given letter. -/
def Flag.ofChar? (c : Char) : Option Flag :=
  match c with
  | 'i' => some ignoreCase
  | 'm' => some multiLine
  | 's' => some dotMatchesNewLine
  | 'U' => some swapGreed
  | 'u' => some unicode
  | 'R' => some crlf
  | 'x' => some ignoreWhitespace
  | _ => none

/-- The flags that the items before a negation set, and those that the items behind it clear. -/
def FlagChange.ofItems (items : List FlagItem) : FlagChange :=
  let flagsOf (is : List FlagItem) : List Flag := is.filterMap fun
    | .flag f => some f
    | .negation => none
  ⟨flagsOf (items.takeWhile (· ≠ .negation)), flagsOf (items.dropWhile (· ≠ .negation))⟩

/-- Reads flags up to a colon or a closing parenthesis, which is part of the answer; `items` are
those before, latest first. -/
def readFlags : (items : List FlagItem) → List Char → Reading ((List FlagItem × Char) × List Char)
  | _, [] => .error .flagUnexpectedEnd
  | items, c :: cs =>
    if c = ':' ∨ c = ')' then
      if items.head? = some .negation then .error .flagDanglingNegation
      else .ok ((items.reverse, c), cs)
    else if c = '-' then
      if FlagItem.negation ∈ items then .error .flagRepeatedNegation
      else readFlags (.negation :: items) cs
    else match Flag.ofChar? c with
      | none => .error .flagUnrecognized
      | some f =>
        if FlagItem.flag f ∈ items then .error .flagDuplicate
        else readFlags (.flag f :: items) cs

/-- Whether a character may stand in the name of a group. -/
def isGroupNameChar (first : Bool) (c : Char) : Bool :=
  c == '_' || Unicode.isAlphabetic c ||
    (!first && (c == '.' || c == '[' || c == ']' || Unicode.isNumeric c))

/-- Reads the name of a group up to the closing angle bracket. -/
def readGroupName : (name : List Char) → List Char → Reading (List Char × List Char)
  | _, [] => .error .groupNameUnclosed
  | name, c :: cs =>
    if c = '>' then
      if name.isEmpty then .error .groupNameEmpty else .ok (name.reverse, cs)
    else if isGroupNameChar name.isEmpty c then readGroupName (c :: name) cs
    else .error .groupNameInvalid

/-- What the text behind an opening parenthesis begins. -/
inductive GroupStart where
  /-- A group that captures, with its name if it has one. -/
  | capture (name : Option (List Char))
  /-- A group that captures nothing and sets flags within it. -/
  | plain (change : FlagChange)
  /-- Flags for the rest of the group around. -/
  | flags (change : FlagChange)
deriving Repr, Inhabited

/-- Reads what stands behind an opening parenthesis up to the body of the group. -/
def readGroupStart (verbose : Bool) (cs : List Char) : Reading (GroupStart × List Char) := do
  match skip verbose cs with
  | '?' :: '=' :: _ | '?' :: '!' :: _ | '?' :: '<' :: '=' :: _ | '?' :: '<' :: '!' :: _ =>
    .error .lookAroundUnsupported
  | '?' :: 'P' :: '<' :: cs | '?' :: '<' :: cs =>
    let (name, cs) ← readGroupName [] cs
    return (.capture (some name), cs)
  | '?' :: [] => .error .groupUnclosed
  | '?' :: cs =>
    let ((items, close), cs) ← readFlags [] cs
    if close = ':' then return (.plain (.ofItems items), cs)
    else if items.isEmpty then .error .repetitionMissing
    else return (.flags (.ofItems items), cs)
  | cs => return (.capture none, cs)

/-! ## Whole patterns -/

/-- A group that is still open: what was read before it, and its flags. -/
structure OpenGroup where
  change : Option FlagChange
  verbose : Bool
  branches : List Term
  items : List Term
deriving Repr, Inhabited

/-- What has been read of the innermost open group: whether white space means nothing in it, its
finished branches and the items of its last branch, latest first; the groups around it; and the
names of groups. -/
structure ReadState where
  verbose : Bool := false
  branches : List Term := []
  items : List Term := []
  outer : List OpenGroup := []
  names : List (List Char) := []
deriving Repr, Inhabited

namespace ReadState

/-- Adds an item to the innermost group. -/
def push (s : ReadState) (t : Term) : ReadState := { s with items := t :: s.items }

/-- The innermost group as one term. -/
def term (s : ReadState) : Term :=
  .ofBranches ((Term.ofItems s.items.reverse :: s.branches).reverse)

/-- Opens a group. -/
def openGroup (s : ReadState) (change : Option FlagChange) : ReadState :=
  { s with
    verbose := (change.bind (·.state? .ignoreWhitespace)).getD s.verbose
    branches := []
    items := []
    outer := ⟨change, s.verbose, s.branches, s.items⟩ :: s.outer }

/-- Reads one symbol of the pattern, which begins with `c`. -/
def step (s : ReadState) (c : Char) (cs : List Char) : Reading (ReadState × List Char) := do
  match c with
  | '(' =>
    let (start, cs) ← readGroupStart s.verbose cs
    match start with
    | .flags change =>
      return ({ s.push (.flags change) with
        verbose := (change.state? .ignoreWhitespace).getD s.verbose }, cs)
    | .plain change => return (s.openGroup (some change), cs)
    | .capture none => return (s.openGroup none, cs)
    | .capture (some name) =>
      if name ∈ s.names then .error .groupNameDuplicate
      else return ({ s.openGroup none with names := name :: s.names }, cs)
  | ')' => match s.outer with
    | [] => .error .groupUnopened
    | g :: outer =>
      return ({ s with
        verbose := g.verbose
        branches := g.branches
        items := .group g.change s.term :: g.items
        outer }, cs)
  | '|' =>
    return ({ s with branches := Term.ofItems s.items.reverse :: s.branches, items := [] }, cs)
  | '[' =>
    let (t, cs) ← readClass s.verbose cs
    return (s.push t, cs)
  | '?' | '*' | '+' =>
    let (t, ts) ← popRepeatable s.items
    let least := if c = '+' then 1 else 0
    let most := if c = '?' then some 1 else none
    return ({ s with items := .repetition t least most :: ts }, dropLazyMark cs)
  | '{' =>
    let (t, ts) ← popRepeatable s.items
    let ((least, most), cs) ← readBounds s.verbose cs
    return ({ s with items := .repetition t least most :: ts }, cs)
  | '.' => return (s.push .dot, cs)
  | '^' => return (s.push (.assertion .startLine), cs)
  | '$' => return (s.push (.assertion .endLine), cs)
  | '\\' =>
    let (p, cs) ← readEscape s.verbose cs
    let t : Term := match p with
      | .literal l => .literal l
      | .assertion a => .assertion a
      | .dot => .dot
      | .short kind negated => .short kind negated
      | .property name negated => .property name negated
    return (s.push t, cs)
  | c => return (s.push (.literal ⟨c, false⟩), cs)

/-- Reads the symbols of a pattern up to its end. -/
def run : (turns : Nat) → ReadState → List Char → Reading ReadState
  | 0, s, _ => .ok s
  | turns + 1, s, cs =>
    match skip s.verbose cs with
    | [] => .ok s
    | c :: cs => do
      let (s, cs) ← s.step c cs
      run turns s cs

end ReadState

/-- How deep the parts of a pattern may nest. -/
def nestLimit : Nat := 250

/-- Reads a whole pattern. -/
def Term.read (pattern : String) : Reading Term := do
  let cs := pattern.toList
  let s ← ReadState.run (cs.length + 1) {} cs
  if !s.outer.isEmpty then .error .groupUnclosed
  else if nestLimit < s.term.depth then .error (.nestLimit nestLimit)
  else return s.term

end Concord.Regex
