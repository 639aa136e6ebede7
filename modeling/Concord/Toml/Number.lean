import Concord.Toml.Text
import Concord.Toml.Value

/-!
# Numbers, times and other words of a TOML document

A value that is no string, list or table is one word, and the whole word must have one of the known
forms.  Between two digits of a number there may be one underscore.
-/

set_option autoImplicit false

namespace Concord.Toml

/-- Digits in a base without the underscores between them; there must be a digit on both sides of
each. -/
def plainDigits? (base : Nat) : List Char → Option (List Char)
  | [] => none
  | [c] => do
    let _ ← digit? base c
    return [c]
  | c :: '_' :: cs => do
    let _ ← digit? base c
    return c :: (← plainDigits? base cs)
  | c :: cs => do
    let _ ← digit? base c
    return c :: (← plainDigits? base cs)

/-- A sign in front of a word, and whether it is a minus. -/
def takeSign : List Char → Bool × List Char
  | '+' :: cs => (false, cs)
  | '-' :: cs => (true, cs)
  | cs => (false, cs)

/-- Digits of which the first is no needless zero. -/
def wholeDigits? (cs : List Char) : Option (List Char) := do
  let ds ← plainDigits? 10 cs
  if ds.head? = some '0' ∧ 1 < ds.length then none else some ds

/-- An integer of 64 bits. -/
def bounded? (i : Int) : Option Value :=
  if -0x8000000000000000 ≤ i ∧ i < 0x8000000000000000 then some (.integer i) else none

/-- A number in a base that stands for itself. -/
def based? (base : Nat) (cs : List Char) : Option Value := do
  bounded? (← digitsValue? base 0 (← plainDigits? base cs))

/-- An integer. -/
def integer? : List Char → Option Value
  | '0' :: 'x' :: cs => based? 16 cs
  | '0' :: 'o' :: cs => based? 8 cs
  | '0' :: 'b' :: cs => based? 2 cs
  | cs => do
    let (negative, cs) := takeSign cs
    let n ← digitsValue? 10 0 (← wholeDigits? cs)
    bounded? (if negative then -n else n)

/-- The number `digits * 10 ^ exponent`. -/
def scaleDigits (digits : Nat) (exponent : Int) : Float :=
  let leading := (Nat.toDigits 10 digits).length + exponent
  if digits = 0 ∨ leading < -400 then 0
  else if 400 < leading then 1 / 0
  else if exponent < 0 then Float.ofScientific digits true (-exponent).toNat
  else Float.ofScientific digits false exponent.toNat

/-- The value of an exponent. -/
def exponent? (cs : List Char) : Option Int := do
  let (negative, cs) := takeSign cs
  let n ← digitsValue? 10 0 (← plainDigits? 10 cs)
  return if negative then -n else n

/-- A number with a point or an exponent, without its sign. -/
def magnitude? (cs : List Char) : Option Float := do
  let isMark := fun c : Char ↦ c == 'e' || c == 'E'
  let front := cs.takeWhile (!isMark ·)
  let exponent ← match cs.dropWhile (!isMark ·) with
    | [] => some 0
    | _ :: power => exponent? power
  let whole := front.takeWhile (· != '.')
  let wholeDigits ← wholeDigits? whole
  match front.dropWhile (· != '.') with
  | [] =>
    if cs.any isMark then return scaleDigits (← digitsValue? 10 0 wholeDigits) exponent else none
  | _ :: fraction =>
    let places ← plainDigits? 10 fraction
    return scaleDigits (← digitsValue? 10 0 (wholeDigits ++ places)) (exponent - places.length)

/-- A floating point number.  Infinity must be written as a word. -/
def float? (cs : List Char) : Option Value :=
  let (negative, cs) := takeSign cs
  let signed (x : Float) : Value := .float (if negative then -x else x)
  if cs = ['i', 'n', 'f'] then some (signed (1 / 0))
  else if cs = ['n', 'a', 'n'] then some (signed (0 / 0))
  else do
    let x ← magnitude? cs
    if x.isInf ∧ !negative then none else some (signed x)

/-! ## Times -/

/-- A number of two digits. -/
def twoDigits? (a b : Char) (most : Nat) : Option Nat := do
  let n ← digitsValue? 10 0 [a, b]
  if n ≤ most then some n else none

/-- How many days a month has. -/
def daysIn (year month : Nat) : Nat :=
  if month = 2 then
    if year % 4 = 0 ∧ (year % 100 ≠ 0 ∨ year % 400 = 0) then 29 else 28
  else if month ∈ [4, 6, 9, 11] then 30
  else 31

/-- A date, and the text behind it. -/
def takeDate : List Char → Option (List Char × List Char)
  | y₁ :: y₂ :: y₃ :: y₄ :: '-' :: m₁ :: m₂ :: '-' :: d₁ :: d₂ :: rest => do
    let year ← digitsValue? 10 0 [y₁, y₂, y₃, y₄]
    let month ← twoDigits? m₁ m₂ 12
    let day ← twoDigits? d₁ d₂ 31
    if 1 ≤ month ∧ 1 ≤ day ∧ day ≤ daysIn year month then
      return ([y₁, y₂, y₃, y₄, '-', m₁, m₂, '-', d₁, d₂], rest)
    else none
  | _ => none

/-- The fraction of a second: nine digits count, and zeros at the end are not written. -/
def fraction (ds : List Char) : List Char :=
  match ((ds.take 9).reverse.dropWhile (· == '0')).reverse with
  | [] => []
  | ds => '.' :: ds

/-- A time of day, and the text behind it. -/
def takeTime : List Char → Option (List Char × List Char)
  | h₁ :: h₂ :: ':' :: m₁ :: m₂ :: ':' :: s₁ :: s₂ :: rest => do
    let _ ← twoDigits? h₁ h₂ 23
    let _ ← twoDigits? m₁ m₂ 59
    let _ ← twoDigits? s₁ s₂ 60
    let front := [h₁, h₂, ':', m₁, m₂, ':', s₁, s₂]
    match rest with
    | '.' :: rest =>
      let ds := rest.takeWhile Char.isDigit
      if ds.isEmpty then none else return (front ++ fraction ds, rest.dropWhile Char.isDigit)
    | rest => return (front, rest)
  | _ => none

/-- The offset of a time from universal time.  Without any offset the sign is a plus. -/
def offset? : List Char → Option (List Char)
  | [] => some []
  | ['Z'] | ['z'] => some ['Z']
  | [sign, h₁, h₂, ':', m₁, m₂] => do
    let hours ← twoDigits? h₁ h₂ 23
    let minutes ← twoDigits? m₁ m₂ 59
    if sign = '+' ∨ sign = '-' then
      return (if hours = 0 ∧ minutes = 0 then '+' else sign) :: [h₁, h₂, ':', m₁, m₂]
    else none
  | _ => none

/-- A date, a time or both. -/
def time? (cs : List Char) : Option Value :=
  match takeDate cs with
  | some (date, []) => some (.time (String.ofList date))
  | some (date, mark :: rest) => do
    if mark = 'T' ∨ mark = 't' ∨ mark = ' ' then
      let (time, rest) ← takeTime rest
      return .time (String.ofList (date ++ 'T' :: time ++ (← offset? rest)))
    else none
  | none =>
    match takeTime cs with
    | some (time, []) => some (.time (String.ofList time))
    | _ => none

/-! ## Words -/

/-- Whether a character may stand in a word. -/
def isWordChar (c : Char) : Bool :=
  c.isAlphanum || c == '_' || c == '+' || c == '-' || c == '.' || c == ':'

/-- A word, and the text behind it.  One blank may stand between a date and a time. -/
def takeWord (cs : List Char) : List Char × List Char :=
  let word := cs.takeWhile isWordChar
  match takeDate word, cs.dropWhile isWordChar with
  | some (_, []), ' ' :: c :: rest =>
    if c.isDigit then
      (word ++ ' ' :: (c :: rest).takeWhile isWordChar, (c :: rest).dropWhile isWordChar)
    else (word, ' ' :: c :: rest)
  | _, rest => (word, rest)

/-- The value of a word. -/
def word? (cs : List Char) : Option Value :=
  if cs = ['t', 'r', 'u', 'e'] then some (.boolean true)
  else if cs = ['f', 'a', 'l', 's', 'e'] then some (.boolean false)
  else time? cs <|> integer? cs <|> float? cs

end Concord.Toml
