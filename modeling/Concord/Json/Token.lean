import Concord.Json.Text

/-!
# Tokens of a JSON text

`tokenize` cuts a text into tokens and stops at the first place that no token fits.  What is wrong
there depends on whether the value is wanted or only skipped, so a `Break` holds both faults.
-/

set_option autoImplicit false

namespace Concord.Json

/-- What is wrong where a text cannot be read on: for a reader that wants the value, and for one
that skips it. -/
structure Break where
  building : Fault
  skipping : Fault
deriving Repr, Inhabited

/-- A break that is the same for both readers. -/
def Break.both (cause : Cause) (offset : Nat) : Break := ⟨⟨cause, offset⟩, ⟨cause, offset⟩⟩

/-- A value that is not a list or an object.  A number or string can be well written and still
stand for nothing. -/
inductive Scalar where
  | null
  | bool (b : Bool)
  | number (n : Except Fault Number)
  | string (text : Except Fault String)
deriving Inhabited

/-- A kind of token. -/
inductive Token where
  | listStart
  | listEnd
  | objectStart
  | objectEnd
  | comma
  | colon
  | scalar (s : Scalar)
  /-- A string that is not closed as it should be. -/
  | brokenString (b : Break)
  /-- Another value that is not written as it should be. -/
  | brokenValue (b : Break)
deriving Inhabited

/-- A token and where it begins and ends. -/
structure Placed where
  token : Token
  start : Nat
  stop : Nat
deriving Inhabited

/-- White space between tokens. -/
def isBlank (c : Char) : Bool := c == ' ' || c == '\n' || c == '\t' || c == '\r'

/-! ## Words -/

/-- What is wrong with a word that goes on at offset `start`, in a text of `size` bytes. -/
def wordFault? (size : Nat) : (start : Nat) → (expected text : List Char) → Option Fault
  | _, [], _ => none
  | _, _ :: _, [] => some ⟨.endInValue, size⟩
  | start, e :: es, c :: cs =>
    if e = c then wordFault? size (start + 1) es cs else some ⟨.expectedWord, start + 1⟩

/-! ## Numbers -/

/-- A part taken off the front of a text, with the number of its characters and the text behind
it. -/
structure Taken (α : Type) where
  part : α
  width : Nat
  rest : List Char

/-- The break where a digit is wanted. -/
def digitBreak (size start : Nat) : List Char → Break
  | [] => ⟨⟨.endInValue, size⟩, ⟨.invalidNumber, size⟩⟩
  | _ :: _ => .both .invalidNumber (start + 1)

/-- At least one digit. -/
def takeDigits (size start : Nat) (cs : List Char) : Except Break (Taken (List Char)) :=
  let ds := cs.takeWhile Char.isDigit
  if ds.isEmpty then .error (digitBreak size start cs)
  else .ok ⟨ds, ds.length, cs.dropWhile Char.isDigit⟩

/-- The digits before the point.  A zero has none behind it. -/
def takeWhole (size start : Nat) : List Char → Except Break (Taken (List Char))
  | '0' :: cs =>
    if (cs.head?.any Char.isDigit) then .error (.both .invalidNumber (start + 2))
    else .ok ⟨['0'], 1, cs⟩
  | cs => takeDigits size start cs

/-- The digits behind the point, if there is one. -/
def takeFraction (size start : Nat) : List Char → Except Break (Taken (List Char))
  | '.' :: cs => do
    let ds ← takeDigits size (start + 1) cs
    return ⟨ds.part, ds.width + 1, ds.rest⟩
  | cs => .ok ⟨[], 0, cs⟩

/-- A sign, and whether it is a minus. -/
def takeSign : List Char → Taken Bool
  | '+' :: cs => ⟨false, 1, cs⟩
  | '-' :: cs => ⟨true, 1, cs⟩
  | cs => ⟨false, 0, cs⟩

/-- The exponent, if there is one. -/
def takeExponent (size start : Nat) :
    List Char → Except Break (Taken (Option (Bool × List Char)))
  | [] => .ok ⟨none, 0, []⟩
  | c :: cs =>
    if c = 'e' ∨ c = 'E' then do
      let sign := takeSign cs
      let ds ← takeDigits size (start + 1 + sign.width) sign.rest
      return ⟨some (sign.part, ds.part), ds.width + sign.width + 1, ds.rest⟩
    else .ok ⟨none, 0, c :: cs⟩

/-- A number without its sign. -/
def takeUnsigned (size start : Nat) (negative : Bool) (cs : List Char) :
    Except Break (Taken Numeral) := do
  let whole ← takeWhole size start cs
  let fraction ← takeFraction size (start + whole.width) whole.rest
  let exponent ← takeExponent size (start + whole.width + fraction.width) fraction.rest
  return ⟨⟨negative, whole.part, fraction.part, exponent.part⟩,
    whole.width + fraction.width + exponent.width, exponent.rest⟩

/-- A number. -/
def takeNumeral (size start : Nat) : List Char → Except Break (Taken Numeral)
  | '-' :: cs => do
    let x ← takeUnsigned size (start + 1) true cs
    return ⟨x.part, x.width + 1, x.rest⟩
  | cs => takeUnsigned size start false cs

/-! ## Tokens -/

/-- The number of bytes that a string takes with its quotes. -/
def stringWidth (ps : List Piece) : Nat := ps.foldr (fun p n ↦ p.width + n) 2

/-- The token of a string from offset `start` on. -/
def stringToken (size start : Nat) (ps : List Piece) (ending : Ending) : Token :=
  let stop := start + stringWidth ps - 1
  let text := Piece.decode ending (start + 1) ps
  match ending.fault? size stop false, ending.fault? size stop true with
  | some building, some skipping =>
    match text with
    | .error f => .brokenString ⟨f, skipping⟩
    | .ok _ => .brokenString ⟨building, skipping⟩
  | _, _ => .scalar (.string (text.map String.ofList))

/-- The token that a word stands for whose first character has been read. -/
def takeWord (size start : Nat) (s : Scalar) (expected cs : List Char) : Taken Token :=
  match wordFault? size (start + 1) expected cs with
  | some f => ⟨.brokenValue ⟨f, f⟩, 0, []⟩
  | none => ⟨.scalar s, expected.length + 1, cs.drop expected.length⟩

/-- The token of a number. -/
def takeNumber (size start : Nat) (c : Char) (cs : List Char) : Taken Token :=
  match takeNumeral size start (c :: cs) with
  | .error b => ⟨.brokenValue b, 0, []⟩
  | .ok x =>
    let value := x.part.value.mapError fun left ↦ ⟨.tooGreat, start + x.width - left⟩
    ⟨.scalar (.number value), x.width, cs.drop (x.width - 1)⟩

/-- The token at the front of a text that begins with `c` at offset `start`. -/
def takeToken (size start : Nat) (c : Char) (cs : List Char) : Taken Token :=
  match c with
  | '[' => ⟨.listStart, 1, cs⟩
  | ']' => ⟨.listEnd, 1, cs⟩
  | '\x7b' => ⟨.objectStart, 1, cs⟩
  | '\x7d' => ⟨.objectEnd, 1, cs⟩
  | ',' => ⟨.comma, 1, cs⟩
  | ':' => ⟨.colon, 1, cs⟩
  | 'n' => takeWord size start .null ['u', 'l', 'l'] cs
  | 't' => takeWord size start (.bool true) ['r', 'u', 'e'] cs
  | 'f' => takeWord size start (.bool false) ['a', 'l', 's', 'e'] cs
  | '"' =>
    let (ps, ending, rest) := takeString cs
    ⟨stringToken size start ps ending, stringWidth ps, rest⟩
  | c =>
    if c = '-' ∨ c.isDigit then takeNumber size start c cs
    else ⟨.brokenValue (.both .expectedValue (start + 1)), 0, []⟩

theorem length_takeWord_le (size start : Nat) (s : Scalar) (expected cs : List Char) :
    (takeWord size start s expected cs).rest.length ≤ cs.length := by
  rw [takeWord]
  split <;> simp

theorem length_takeNumber_le (size start : Nat) (c : Char) (cs : List Char) :
    (takeNumber size start c cs).rest.length ≤ cs.length := by
  rw [takeNumber]
  split <;> simp

theorem length_takeToken_le (size start : Nat) (c : Char) (cs : List Char) :
    (takeToken size start c cs).rest.length ≤ cs.length := by
  unfold takeToken
  split
  case h_10 => exact length_takeString_le cs
  case h_11 =>
    split
    · exact length_takeNumber_le size start _ cs
    · simp
  all_goals first
    | exact Nat.le_refl _
    | exact length_takeWord_le size start _ _ cs

/-- The tokens of a text from offset `start` on, up to the first that is broken. -/
def tokensFrom (size start : Nat) : List Char → List Placed
  | [] => []
  | c :: cs =>
    if isBlank c then tokensFrom size (start + 1) cs
    else
      let taken := takeToken size start c cs
      ⟨taken.part, start, start + taken.width⟩ :: tokensFrom size (start + taken.width) taken.rest
termination_by cs => cs.length
decreasing_by
  · simp
  · exact Nat.lt_succ_of_le (length_takeToken_le size start c cs)

/-- The tokens of a text, up to the first that is broken. -/
def tokenize (source : String) : List Placed :=
  tokensFrom source.utf8ByteSize 0 source.toList

end Concord.Json
