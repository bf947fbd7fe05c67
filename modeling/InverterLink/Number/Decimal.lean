import InverterLink.Number.Binary64

/-!
# Decimal text of double precision numbers

A number is written with the fewest digits that read back as it, and the nearest such digits of
their count. Two layouts arrange the digits: one for records, one for JSON.
-/

namespace InverterLink

/-- A magnitude in decimal: `digits * 10 ^ exponent`. -/
structure Decimal where
  digits : Nat
  exponent : Int
  deriving DecidableEq

namespace Decimal

def toRat (d : Decimal) : Rat := d.digits * (10 : Rat) ^ d.exponent

/-- The greatest `k` with `10 ^ k ≤ q`, for a positive `q`. -/
def magnitude (q : Rat) : Int :=
  if 1 ≤ q then ((Nat.toDigits 10 q.floor.natAbs).length : Int) - 1
  else
    let ceiling := (q.den + q.num.natAbs - 1) / q.num.natAbs
    if ceiling ≤ 1 then 0 else -((Nat.toDigits 10 (ceiling - 1)).length : Int)

/-- The decimal with this exponent that reads back as `q` and is nearest to it, if there is one.
Only the neighbours of `q` on the grid come into question; of two equally near ones the even one
is taken. -/
def onGrid? (q : Rat) (exponent : Int) : Option Decimal :=
  let low := (q / (10 : Rat) ^ exponent).floor.natAbs
  let below : Decimal := ⟨low, exponent⟩
  let above : Decimal := ⟨low + 1, exponent⟩
  let reads (d : Decimal) : Bool := Binary64.round d.toRat = q
  match reads below, reads above with
  | false, false => none
  | true, false => some below
  | false, true => some above
  | true, true =>
    let down := q - below.toRat
    let up := above.toRat - q
    if down < up then some below
    else if up < down then some above
    else if low % 2 = 0 then some below
    else some above

/-- Drop the zeros at the end of the digits, at most `fuel` of them. -/
def stripZeros (d : Decimal) : Nat → Decimal
  | 0 => d
  | fuel + 1 =>
    if d.digits ≠ 0 ∧ d.digits % 10 = 0 then stripZeros ⟨d.digits / 10, d.exponent + 1⟩ fuel
    else d

/-- The most digits that a double precision number needs. -/
def mostDigits : Nat := 17

/-- The fewest digits that read back as a magnitude with 53 significant bits. -/
def shortest (q : Rat) : Decimal :=
  if q = 0 then ⟨0, 0⟩
  else
    let top := magnitude q
    let grids := (List.range mostDigits).map fun n : Nat => top - (n : Int)
    stripZeros ((grids.findSome? (onGrid? q)).getD ⟨0, 0⟩) mostDigits

def characters (d : Decimal) : List Char := Nat.toDigits 10 d.digits

/-- The power of ten of the first digit. -/
def leading (d : Decimal) : Int := (d.characters.length : Int) - 1 + d.exponent

/-- The characters before and behind the point when no power of ten is written. -/
def positional (d : Decimal) : List Char × List Char :=
  let cs := d.characters
  if 0 ≤ d.exponent then (cs ++ List.replicate d.exponent.natAbs '0', ['0'])
  else
    let places := d.exponent.natAbs
    let padded := List.replicate (places + 1 - cs.length) '0' ++ cs
    padded.splitAt (padded.length - places)

/-- The characters before and behind the point when the power of the first digit is written. -/
def scientific (d : Decimal) : List Char × List Char := d.characters.splitAt 1

end Decimal

/-- Which powers of ten of the first digit a layout writes positionally, and whether a positive
power has a sign. -/
structure DecimalLayout where
  lowest : Int
  beyond : Int
  plusSign : Bool

namespace DecimalLayout

/-- Numbers in records are positional from `0.0001` to below `10 ^ 16`. -/
def record : DecimalLayout := ⟨-4, 16, false⟩

/-- Numbers in JSON are positional from `0.00001` to below `10 ^ 16`. -/
def json : DecimalLayout := ⟨-5, 16, true⟩

def text (layout : DecimalLayout) (x : Binary64) : String :=
  let d := Decimal.shortest x.magnitude
  let sign := if x.negative then "-" else ""
  let written (parts : List Char × List Char) : String :=
    String.ofList parts.1 ++
      (if parts.2.isEmpty then "" else "." ++ String.ofList parts.2)
  if d.digits = 0 ∨ (layout.lowest ≤ d.leading ∧ d.leading < layout.beyond) then
    sign ++ written d.positional
  else
    let power := d.leading
    let powerSign := if power < 0 then "-" else if layout.plusSign then "+" else ""
    sign ++ written d.scientific ++ "e" ++ powerSign ++ toString power.natAbs

end DecimalLayout
end InverterLink
