import Concord.Decimal.Notation

/-!
# Numbers of a JSON text

A `Numeral` is a number as it is written.  Its value is a natural or negative integer where one of
64 bits fits, and a floating point number otherwise.

The floating point value is that of the leading digits that fit 64 bits, scaled by a power of ten
in one rounding step for each factor of at most `10 ^ 308`; it is not always the number nearest to
what is written.  A value beyond the greatest finite number is refused.
-/

set_option autoImplicit false

namespace Concord.Json

/-- The value of a number. -/
inductive Number where
  | natural (n : Nat)
  | negative (n : Nat)
  | float (x : Float)
deriving Repr, Inhabited

/-- The number in a message. -/
def Number.describe : Number → String
  | natural n => "integer `" ++ toString n ++ "`"
  | negative n => "integer `-" ++ toString n ++ "`"
  | float x => "floating point `" ++ Decimal.jsonLayout.write x ++ "`"

/-- A number as it is written. -/
structure Numeral where
  negative : Bool
  whole : List Char
  /-- The digits behind the point; none without a point. -/
  fraction : List Char
  /-- Whether the exponent is negative, and its digits. -/
  exponent : Option (Bool × List Char)
deriving Repr, Inhabited

/-- The value of a digit. -/
def digitValue (c : Char) : Nat := c.toNat - '0'.toNat

/-- Takes digits behind `n` as long as the value is at most `most`.  Also answers how many digits
are left over. -/
def absorb (most : Nat) (n : Nat) : List Char → Nat × Nat
  | [] => (n, 0)
  | c :: cs =>
    if n * 10 + digitValue c ≤ most then absorb most (n * 10 + digitValue c) cs
    else (n, (c :: cs).length)

/-- The greatest natural number of 64 bits. -/
def greatestNatural : Nat := 0xFFFFFFFFFFFFFFFF

/-- The greatest exponent that is read. -/
def greatestExponent : Nat := 0x7FFFFFFF

/-- `x * 10 ^ k`, by steps of at most `10 ^ 308` and in no more than `steps` divisions; none if
that is infinite. -/
def scaled : (steps : Nat) → (x : Float) → (k : Int) → Option Float
  | steps, x, k =>
    if 0 ≤ k then
      if k ≤ 308 then
        let y := x * Float.ofScientific 1 false k.toNat
        if y.isInf then none else some y
      else if x == 0 then some x
      else none
    else if -308 ≤ k then some (x / Float.ofScientific 1 false (-k).toNat)
    else
      match steps with
      | 0 => some x
      | steps + 1 => scaled steps (x / Float.ofScientific 1 false 308) (k + 308)

namespace Numeral

/-- A floating point number with the sign of the numeral. -/
def signed (x : Numeral) (y : Float) : Number := .float (if x.negative then -y else y)

/-- The leading digits that fit 64 bits, and the power of ten that scales them; the exponent that is
written does not count. -/
def leading (x : Numeral) : Nat × Int :=
  let (front, beyond) := absorb greatestNatural 0 x.whole
  let (digits, dropped) := absorb greatestNatural front x.fraction
  (digits, (beyond : Int) - (x.fraction.length - dropped : Nat))

/-- The value of a numeral, or the number of its last characters that were not looked at when it
turned out to be too great. -/
def value (x : Numeral) : Except Nat Number :=
  let (digits, scale) := x.leading
  match x.exponent with
  | none =>
    if x.fraction.isEmpty ∧ scale = 0 then
      if !x.negative then .ok (.natural digits)
      else if 0 < digits ∧ digits ≤ 0x8000000000000000 then .ok (.negative digits)
      else .ok (.float (-(Float.ofNat digits)))
    else fromParts 0 digits scale
  | some (down, power) =>
    match absorb greatestExponent 0 power with
    | (k, 0) => fromParts 0 digits (if down then scale - k else scale + k)
    | (_, left) =>
      if digits = 0 ∨ down then .ok (x.signed 0) else .error (left - 1)
where
  /-- The value of scaled digits. -/
  fromParts (left digits : Nat) (scale : Int) : Except Nat Number :=
    match scaled 3 (Float.ofNat digits) scale with
    | some y => .ok (x.signed y)
    | none => .error left

end Numeral

end Concord.Json
