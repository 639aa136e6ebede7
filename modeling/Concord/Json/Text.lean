import Concord.Json.Fault
import Concord.Text.Span

/-!
# Strings of a JSON text

A string is read in two steps.  `takeString` cuts its body into pieces and finds where it ends;
`Piece.decode` says which characters the pieces stand for.  An escaped code unit from the surrogate
range stands for a character only together with another one, so pieces can be well written and
still stand for nothing.
-/

set_option autoImplicit false

namespace Concord.Json

/-- A piece of the body of a string. -/
inductive Piece where
  /-- A character that stands for itself. -/
  | plain (c : Char)
  /-- A character written as a backslash and a letter. -/
  | letter (c : Char)
  /-- A code unit written in four hexadecimal digits. -/
  | unit (n : Nat)
deriving DecidableEq, Repr, Inhabited

/-- The number of bytes that the piece takes. -/
def Piece.width : Piece → Nat
  | plain c => c.utf8Size
  | letter _ => 2
  | unit _ => 6

/-- What ends the body of a string. -/
inductive Ending where
  | quote
  | control
  | badLetter (c : Char)
  | badUnit
  | endOfText
deriving DecidableEq, Repr, Inhabited

/-- The character that a letter behind a backslash stands for. -/
def letterEscape? : Char → Option Char
  | '"' => some '"'
  | '\\' => some '\\'
  | '/' => some '/'
  | 'b' => some '\x08'
  | 'f' => some '\x0c'
  | 'n' => some '\n'
  | 'r' => some '\r'
  | 't' => some '\t'
  | _ => none

/-- The value of a hexadecimal digit. -/
def hexValue? (c : Char) : Option Nat :=
  if c.isDigit then some (c.toNat - '0'.toNat)
  else if 'a' ≤ c ∧ c ≤ 'f' then some (c.toNat - 'a'.toNat + 10)
  else if 'A' ≤ c ∧ c ≤ 'F' then some (c.toNat - 'A'.toNat + 10)
  else none

/-- The value of four hexadecimal digits. -/
def codeUnit? (a b c d : Char) : Option Nat := do
  return (((← hexValue? a) * 16 + (← hexValue? b)) * 16 + (← hexValue? c)) * 16 + (← hexValue? d)

/-- What ends a string whose code unit has digits missing.  A code unit takes four bytes. -/
def unitEnding (rest : List Char) : Ending := if utf8Length rest < 4 then .endOfText else .badUnit

/-- The pieces of a body, what ends it, and the text behind that. -/
def takeString : List Char → List Piece × Ending × List Char
  | [] => ([], .endOfText, [])
  | '"' :: cs => ([], .quote, cs)
  | '\\' :: [] => ([], .endOfText, [])
  | '\\' :: 'u' :: cs =>
    match cs with
    | a :: b :: c :: d :: cs =>
      match codeUnit? a b c d with
      | some n =>
        let (ps, e, rest) := takeString cs
        (.unit n :: ps, e, rest)
      | none => ([], unitEnding (a :: b :: c :: d :: cs), [])
    | cs => ([], unitEnding cs, [])
  | '\\' :: l :: cs =>
    match letterEscape? l with
    | some c =>
      let (ps, e, rest) := takeString cs
      (.letter c :: ps, e, rest)
    | none => ([], .badLetter l, [])
  | c :: cs =>
    if c.toNat < 0x20 then ([], .control, cs)
    else
      let (ps, e, rest) := takeString cs
      (.plain c :: ps, e, rest)

theorem length_takeString_le (cs : List Char) : (takeString cs).2.2.length ≤ cs.length := by
  fun_induction takeString cs <;> simp_all <;> omega

/-- What is wrong with a string that something other than a quote ends at offset `start`, in a text
of `size` bytes.  Where the string is only skipped, a control character is not read. -/
def Ending.fault? (size start : Nat) (skipped : Bool) : Ending → Option Fault
  | quote => none
  | control => some ⟨.controlCharacter, if skipped then start else start + 1⟩
  | badLetter _ => some ⟨.invalidEscape, start + 2⟩
  | badUnit => some ⟨.invalidEscape, start + 6⟩
  | endOfText => some ⟨.endInString, size⟩

/-- Whether a code unit is the first of two. -/
def isLeading (n : Nat) : Bool := 0xD800 ≤ n && n ≤ 0xDBFF

/-- Whether a code unit is the second of two. -/
def isTrailing (n : Nat) : Bool := 0xDC00 ≤ n && n ≤ 0xDFFF

/-- The character for two code units. -/
def pairChar (m n : Nat) : Char := Char.ofNat ((m - 0xD800) * 0x400 + (n - 0xDC00) + 0x10000)

/-- What is wrong where a leading code unit comes right before the end of a string at `start`. -/
def Ending.pendingFault? (start : Nat) : Ending → Option Fault
  | quote | control => some ⟨.unfinishedSurrogate, start + 1⟩
  | badLetter _ => some ⟨.unfinishedSurrogate, start + 2⟩
  | badUnit | endOfText => none

/-- The characters that pieces from offset `start` on stand for. -/
def Piece.decode (ending : Ending) (start : Nat) : List Piece → Except Fault (List Char)
  | [] => .ok []
  | plain c :: ps => (c :: ·) <$> decode ending (start + c.utf8Size) ps
  | letter c :: ps => (c :: ·) <$> decode ending (start + 2) ps
  | unit m :: ps =>
    if isTrailing m then .error ⟨.loneSurrogate, start + 6⟩
    else if isLeading m then
      match ps with
      | [] =>
        match ending.pendingFault? (start + 6) with
        | some f => .error f
        | none => .ok []
      | plain _ :: _ => .error ⟨.unfinishedSurrogate, start + 7⟩
      | letter _ :: _ => .error ⟨.unfinishedSurrogate, start + 8⟩
      | unit n :: ps =>
        if isTrailing n then (pairChar m n :: ·) <$> decode ending (start + 12) ps
        else .error ⟨.loneSurrogate, start + 12⟩
    else (Char.ofNat m :: ·) <$> decode ending (start + 6) ps

end Concord.Json
