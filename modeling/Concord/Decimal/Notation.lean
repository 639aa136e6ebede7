import Concord.Decimal.Shortest

/-!
# Writing numbers

Which digits a number has is one question, and how they are laid out another.  A `Layout` holds
the decisions of the second.
-/

set_option autoImplicit false

namespace Concord.Decimal

/-- How the digits of a number are laid out. -/
structure Layout where
  /-- The exponents of the leading digit for which the number is written without one; none means
  all of them. -/
  plain : Option (Int × Int)
  /-- Whether a whole number without exponent ends in `.0`. -/
  pointZero : Bool
deriving Repr

/-- The digits of a natural number. -/
def digitChars (n : Nat) : List Char := Nat.toDigits 10 n

/-- A number without an exponent. -/
def Layout.positional (l : Layout) (d : Digits) : String :=
  let ds := digitChars d.digits
  let places := ds.length + d.exponent
  if 0 ≤ d.exponent then
    String.ofList (ds ++ List.replicate d.exponent.toNat '0') ++ if l.pointZero then ".0" else ""
  else if 0 < places then
    String.ofList (ds.take places.toNat) ++ "." ++ String.ofList (ds.drop places.toNat)
  else "0." ++ String.ofList (List.replicate (-places).toNat '0' ++ ds)

/-- A number with one digit before the point and an exponent. -/
def scientific (d : Digits) : String :=
  let ds := digitChars d.digits
  let front := ds.take 1 ++ if ds.length = 1 then [] else '.' :: ds.drop 1
  String.ofList front ++ "e" ++ toString ((ds.length : Int) + d.exponent - 1)

/-- The text of a number. -/
def Layout.write (l : Layout) (x : Float) : String :=
  if x.isNaN then "NaN"
  else
    let sign := if x.toBits.toNat / 0x8000000000000000 = 1 then "-" else ""
    let magnitude := Magnitude.ofFloat x
    if x.isInf then sign ++ "inf"
    else if magnitude.significand = 0 then sign ++ if l.pointZero then "0.0" else "0"
    else
      let d := shortest magnitude
      let leading := ((digitChars d.digits).length : Int) + d.exponent - 1
      match l.plain with
      | none => sign ++ l.positional d
      | some (first, last) =>
        if first ≤ leading ∧ leading ≤ last then sign ++ l.positional d
        else sign ++ scientific d

/-- Numbers in messages about JSON: whole ones end in `.0`, and very small or great ones have an
exponent. -/
def jsonLayout : Layout := ⟨some (-5, 15), true⟩

/-- Numbers written out in full. -/
def fullLayout : Layout := ⟨none, false⟩

end Concord.Decimal
