import Concord.Regex.Basic
import Concord.Regex.Property
import Concord.Regex.Reader
import Concord.Unicode.CaseFold

/-!
# What patterns mean

`Term.toRegex` turns a pattern as it is written into a regular expression.  Flags that stand in
the middle of a group hold up to its end; they are handed on from term to term.

Without the flag `u` a pattern speaks of bytes, of which a text in UTF-8 holds only those of ASCII
on their own.  Whatever could match another byte is an error.
-/

set_option autoImplicit false

namespace Concord.Regex

/-- The flags that hold at a place of a pattern. -/
structure Mode where
  ignoreCase : Bool := false
  multiLine : Bool := false
  dotMatchesNewLine : Bool := false
  unicode : Bool := true
  crlf : Bool := false
deriving DecidableEq, Repr, Inhabited

/-- Applies a change of flags. -/
def Mode.apply (m : Mode) (f : FlagChange) : Mode where
  ignoreCase := (f.state? .ignoreCase).getD m.ignoreCase
  multiLine := (f.state? .multiLine).getD m.multiLine
  dotMatchesNewLine := (f.state? .dotMatchesNewLine).getD m.dotMatchesNewLine
  unicode := (f.state? .unicode).getD m.unicode
  crlf := (f.state? .crlf).getD m.crlf

/-! ## Classes -/

/-- A word character of ASCII. -/
def isAsciiWord (c : Char) : Bool := c.isAlphanum || c == '_'

/-- A blank or a line break of ASCII. -/
def isAsciiSpace (c : Char) : Bool := c == ' ' || ('\t' ≤ c && c ≤ '\r')

/-- The characters of a named class. -/
def AsciiClass.contains (kind : AsciiClass) (c : Char) : Bool :=
  match kind with
  | alnum => c.isAlphanum
  | alpha => c.isAlpha
  | ascii => c.toNat < 0x80
  | blank => c == ' ' || c == '\t'
  | cntrl => c.toNat < 0x20 || c.toNat == 0x7F
  | digit => c.isDigit
  | graph => '!' ≤ c && c ≤ '~'
  | lower => c.isLower
  | print => ' ' ≤ c && c ≤ '~'
  | punct => '!' ≤ c && c ≤ '~' && !c.isAlphanum
  | space => isAsciiSpace c
  | upper => c.isUpper
  | word => isAsciiWord c
  | xdigit => c.isDigit || ('a' ≤ c && c ≤ 'f') || ('A' ≤ c && c ≤ 'F')

/-- The characters of a class with a one-letter escape. -/
def ShortClass.contains (unicode : Bool) (kind : ShortClass) (c : Char) : Bool :=
  match kind with
  | digit => if unicode then Unicode.isDigit c else c.isDigit
  | space => if unicode then Unicode.isSpace c else isAsciiSpace c
  | word => if unicode then Unicode.isWord c else isAsciiWord c

/-- Adds to a set the characters that differ from one of it in case alone. -/
def Mode.foldClass (m : Mode) (p : Char → Bool) : Char → Bool :=
  if !m.ignoreCase then p
  else if m.unicode then
    fun c ↦ p c || (Unicode.foldOrbit c.toNat).any fun n ↦ p (Char.ofNat n)
  else fun c ↦ p c || (c.isAlpha && (p c.toLower || p c.toUpper))

/-- Turns a set into its complement if it is negated. -/
def negateIf (negated : Bool) (p : Char → Bool) : Char → Bool := fun c ↦ p c != negated

/-- Whether a set of bytes holds none outside ASCII. -/
def isAsciiClass (p : Char → Bool) : Bool :=
  (List.range 0x80).all fun n ↦ !p (Char.ofNat (0x80 + n))

/-- Refuses a set of bytes that holds one outside ASCII. -/
def Mode.checkBytes (m : Mode) (p : Char → Bool) : Except PatternError (Char → Bool) :=
  if m.unicode then .ok p
  else if isAsciiClass p then .ok fun c ↦ c.toNat < 0x80 && p c
  else .error .invalidUtf8

/-- A literal outside a class. -/
def Mode.literal (m : Mode) (l : Literal) : Except PatternError (Char → Bool) :=
  if !m.unicode ∧ l.isByte ∧ 0x80 ≤ l.char.toNat then .error .invalidUtf8
  else .ok (m.foldClass (· == l.char))

/-- A literal within a class. -/
def Mode.classLiteral (m : Mode) (l : Literal) : Except PatternError Char :=
  if m.unicode ∨ l.char.toNat < 0x80 then .ok l.char
  else if l.isByte then .error .invalidUtf8
  else .error .unicodeNotAllowed

/-- A class with a one-letter escape. -/
def Mode.short (m : Mode) (kind : ShortClass) (negated : Bool) :
    Except PatternError (Char → Bool) :=
  m.checkBytes (negateIf negated (kind.contains m.unicode))

/-- A class given by a property. -/
def Mode.property (m : Mode) (name : PropertyName) (negated : Bool) :
    Except PatternError (Char → Bool) := do
  if !m.unicode then .error .unicodeNotAllowed
  else
    let p ← name.toClass
    return negateIf negated (m.foldClass p)

/-- Two sets put together. -/
def SetOperation.apply (op : SetOperation) (p q : Char → Bool) (c : Char) : Bool :=
  match op with
  | intersection => p c && q c
  | difference => p c && !q c
  | symmetricDifference => p c != q c

mutual

/-- The characters of a set within a class. -/
def ClassSet.toClass (m : Mode) : ClassSet → Except PatternError (Char → Bool)
  | .empty => .ok fun _ ↦ false
  | .literal l => do
    let c ← m.classLiteral l
    return (· == c)
  | .range first last => do
    let a ← m.classLiteral first
    let b ← m.classLiteral last
    return fun c ↦ a ≤ c && c ≤ b
  | .ascii kind negated => .ok (negateIf negated (m.foldClass kind.contains))
  | .short kind negated => m.short kind negated
  | .property name negated => m.property name negated
  | .bracketed negated set => do
    let p ← set.toClass m
    return negateIf negated (m.foldClass p)
  | .union items => ClassSet.toClassAll m items
  | .operation op left right => do
    let p ← left.toClass m
    let q ← right.toClass m
    return op.apply (m.foldClass p) (m.foldClass q)

/-- The characters of any of some sets. -/
def ClassSet.toClassAll (m : Mode) : List ClassSet → Except PatternError (Char → Bool)
  | [] => .ok fun _ ↦ false
  | s :: ss => do
    let p ← s.toClass m
    let q ← ClassSet.toClassAll m ss
    return fun c ↦ p c || q c

end

/-- The characters of a bracketed class. -/
def Mode.bracketed (m : Mode) (negated : Bool) (set : ClassSet) :
    Except PatternError (Char → Bool) := do
  let p ← set.toClass m
  m.checkBytes (negateIf negated (m.foldClass p))

/-- The characters that a dot stands for. -/
def Mode.dot (m : Mode) : Except PatternError (Char → Bool) :=
  if !m.unicode then .error .invalidUtf8
  else .ok fun c ↦ m.dotMatchesNewLine || !(c == '\n' || (m.crlf && c == '\r'))

/-! ## Assertions -/

/-- Whether a line begins between two characters. -/
def startsLine (crlf : Bool) (before after : Option Char) : Bool :=
  match before with
  | none => true
  | some '\n' => true
  | some '\r' => crlf && after != some '\n'
  | some _ => false

/-- Whether a line ends between two characters. -/
def endsLine (crlf : Bool) (before after : Option Char) : Bool :=
  match after with
  | none => true
  | some '\r' => crlf
  | some '\n' => !(crlf && before == some '\r')
  | some _ => false

/-- The condition that an assertion puts on the characters around a position. -/
def Mode.assertion (m : Mode) (a : Assertion) (before after : Option Char) : Bool :=
  let isWord (c : Option Char) : Bool := c.any (ShortClass.word.contains m.unicode)
  match a with
  | .startText => before.isNone
  | .endText => after.isNone
  | .startLine => if m.multiLine then startsLine m.crlf before after else before.isNone
  | .endLine => if m.multiLine then endsLine m.crlf before after else after.isNone
  | .wordBoundary => isWord before != isWord after
  | .notWordBoundary => isWord before == isWord after
  | .wordStart => !isWord before && isWord after
  | .wordEnd => isWord before && !isWord after
  | .wordStartHalf => !isWord before
  | .wordEndHalf => !isWord after

/-! ## Terms -/

namespace Term

mutual

/-- The expression that a term stands for, and the flags that hold behind it. -/
def toRegex (m : Mode) : Term → Except PatternError (Regex × Mode)
  | empty => .ok (.empty, m)
  | flags change => .ok (.empty, m.apply change)
  | literal l => do return (.chars (← m.literal l), m)
  | dot => do return (.chars (← m.dot), m)
  | assertion a => .ok (.look (m.assertion a), m)
  | short kind negated => do return (.chars (← m.short kind negated), m)
  | property name negated => do return (.chars (← m.property name negated), m)
  | bracketed negated set => do return (.chars (← m.bracketed negated set), m)
  | repetition t least most => do
    let (r, m) ← toRegex m t
    return (.repeated r least most, m)
  | group change t => do
    let (r, _) ← toRegex ((change.map m.apply).getD m) t
    return (r, m)
  | alternation branches => do
    let (rs, m) ← toRegexAll m branches
    return (Regex.altAll rs, m)
  | concat items => do
    let (rs, m) ← toRegexAll m items
    return (Regex.seqAll rs, m)

/-- The expressions that terms stand for, each with the flags that the one before it leaves. -/
def toRegexAll (m : Mode) : List Term → Except PatternError (List Regex × Mode)
  | [] => .ok ([], m)
  | t :: ts => do
    let (r, m) ← toRegex m t
    let (rs, m) ← toRegexAll m ts
    return (r :: rs, m)

end

end Term

/-- Reads a regular expression. -/
def read (pattern : String) : Except PatternError Regex := do
  let t ← Term.read pattern
  let (r, _) ← t.toRegex {}
  return r

end Concord.Regex
