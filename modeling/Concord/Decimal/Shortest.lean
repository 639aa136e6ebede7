/-!
# The shortest decimal of a number

A binary floating point number stands for all reals that round to it.  `shortest` finds a decimal
with the fewest digits among those, and of two with as few digits the nearer one.  The search is
exact: fronts of the number's decimal expansion are compared with the ends of the interval in
natural numbers.
-/

set_option autoImplicit false

namespace Concord.Decimal

/-- The magnitude `significand * 2 ^ exponent` of a finite number.  The number below it is half as
far away as the one above it where `closeBelow` holds. -/
structure Magnitude where
  significand : Nat
  exponent : Int
  closeBelow : Bool
deriving Repr, Inhabited

/-- The magnitude of a finite number. -/
def Magnitude.ofFloat (x : Float) : Magnitude :=
  let bits := x.toBits.toNat
  let fraction := bits % 0x10000000000000
  match bits / 0x10000000000000 % 0x800 with
  | 0 => ⟨fraction, -1074, false⟩
  | e => ⟨0x10000000000000 + fraction, (e : Int) - 1075, fraction == 0 && 1 < e⟩

/-- The decimal `digits * 10 ^ exponent`. -/
structure Digits where
  digits : Nat
  exponent : Int
deriving DecidableEq, Repr, Inhabited

/-- `b ^ k` for a positive `k`, and one for any other. -/
def power (b : Nat) (k : Int) : Nat := Nat.pow b k.toNat

/-- Compares `a * 10 ^ i` with `n * 2 ^ j`. -/
def compareScaled (a : Nat) (i : Int) (n : Nat) (j : Int) : Ordering :=
  compare (a * power 10 i * power 2 (-j)) (n * power 2 j * power 10 (-i))

/-- Whether a decimal is among the reals that round to the number.  The ends of the interval are if
the significand is even. -/
def Magnitude.standsFor (x : Magnitude) (d : Digits) : Bool :=
  let least := 4 * x.significand - if x.closeBelow then 1 else 2
  let most := 4 * x.significand + 2
  let below := compareScaled d.digits d.exponent least (x.exponent - 2)
  let above := compareScaled d.digits d.exponent most (x.exponent - 2)
  let ends := x.significand % 2 == 0
  (below == .gt || (ends && below == .eq)) && (above == .lt || (ends && above == .eq))

/-- The least `k` from `k` on, in a number of steps, for which the number is below `10 ^ k`. -/
def Magnitude.scaleFrom (x : Magnitude) : (steps : Nat) → (k : Int) → Int
  | 0, k => k
  | steps + 1, k =>
    if compareScaled 1 k x.significand x.exponent == .gt then k else x.scaleFrom steps (k + 1)

/-- The least `k` for which the number is below `10 ^ k`. -/
def Magnitude.scale (x : Magnitude) : Int :=
  x.scaleFrom 6 (((x.significand.log2 + x.exponent) * 30103) / 100000 - 1)

/-- The best decimal on the grid of `10 ^ exponent`, if one there stands for the number. -/
def Magnitude.onGrid? (x : Magnitude) (exponent : Int) : Option Digits :=
  let numerator := x.significand * power 2 x.exponent * power 10 (-exponent)
  let denominator := power 2 (-x.exponent) * power 10 exponent
  let low : Digits := ⟨numerator / denominator, exponent⟩
  let high : Digits := ⟨numerator / denominator + 1, exponent⟩
  match x.standsFor low, x.standsFor high with
  | true, false => some low
  | false, true => some high
  | true, true =>
    let twice := 2 * (numerator % denominator)
    if twice < denominator ∨ (twice = denominator ∧ low.digits % 2 = 0) then some low
    else some high
  | false, false => none

/-- Moves factors of ten from the digits to the exponent. -/
def Digits.strip : (steps : Nat) → Digits → Digits
  | 0, d => d
  | steps + 1, d =>
    if d.digits ≠ 0 ∧ d.digits % 10 = 0 then strip steps ⟨d.digits / 10, d.exponent + 1⟩ else d

/-- The shortest decimal that stands for a finite number that is not zero. -/
def shortest (x : Magnitude) : Digits :=
  let k := x.scale
  match (List.range 17).findSome? fun n ↦ x.onGrid? (k - (n + 1 : Nat)) with
  | some d => d.strip 17
  | none => ⟨x.significand * power 2 x.exponent * power 5 (-x.exponent), min x.exponent 0⟩

end Concord.Decimal
