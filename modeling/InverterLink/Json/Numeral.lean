import InverterLink.Number.Decimal

/-!
# Numbers in JSON

A numeral is kept as it is written: digits before the point, digits behind it, and a power of
ten. Whole numbers are read off exactly. A double precision number is read through a significand
of 64 bits: digits that do not fit into it only count as places, and the power of ten is applied
by one rounded multiplication or division.
-/

namespace InverterLink.Json

/-- A number as it is written. -/
structure Numeral where
  negative : Bool
  whole : List Char
  /-- The digits behind the point, none if there is no point. -/
  fraction : List Char
  /-- The sign and the digits of a power of ten. -/
  power : Option (Bool × List Char)
  deriving DecidableEq

namespace Numeral

/-- The value of a digit. -/
def digit (c : Char) : Nat := c.toNat - '0'.toNat

/-- The number that digits stand for. -/
def value (digits : List Char) : Nat := digits.foldl (fun n c => n * 10 + digit c) 0

/-- Split the digits at the front off a text. -/
def digits (cs : List Char) : List Char × List Char := cs.span Char.isDigit

/-- The fraction at the front of a text: a point needs digits behind it. -/
def readFraction? : List Char → Option (List Char × List Char)
  | '.' :: rest =>
    let (ds, rest) := digits rest
    if ds.isEmpty then none else some (ds, rest)
  | rest => some ([], rest)

/-- The power of ten that a text ends with. -/
def readPower? : List Char → Option (Option (Bool × List Char))
  | [] => some none
  | e :: rest =>
    if e ≠ 'e' ∧ e ≠ 'E' then none
    else
      let (negative, rest) :=
        match rest with
        | '-' :: rest => (true, rest)
        | '+' :: rest => (false, rest)
        | rest => (false, rest)
      let (ds, rest) := digits rest
      if ds.isEmpty ∨ ¬ rest.isEmpty then none else some (some (negative, ds))

/-- Read a numeral. Before the point, a zero stands alone. -/
def ofText? (cs : List Char) : Option Numeral := do
  let (negative, cs) :=
    match cs with
    | '-' :: rest => (true, rest)
    | rest => (false, rest)
  let (whole, cs) := digits cs
  if whole.isEmpty ∨ (whole.head? = some '0' ∧ whole ≠ ['0']) then none
  let (fraction, cs) ← readFraction? cs
  let power ← readPower? cs
  return ⟨negative, whole, fraction, power⟩

/-- The text of a numeral. A positive power of ten has a sign. -/
def text (n : Numeral) : String :=
  let sign := if n.negative then "-" else ""
  let fraction := if n.fraction.isEmpty then "" else "." ++ String.ofList n.fraction
  let power :=
    match n.power with
    | none => ""
    | some (negative, ds) => (if negative then "e-" else "e+") ++ String.ofList ds
  sign ++ String.ofList n.whole ++ fraction ++ power

/-- The numeral of a whole number. -/
def ofInt (n : Int) : Numeral := ⟨n < 0, Nat.toDigits 10 n.natAbs, [], none⟩

/-- The numeral of a double precision number. -/
def ofBinary64 (x : Binary64) : Numeral :=
  (ofText? (DecimalLayout.json.text x).toList).getD (ofInt 0)

/-- Exact whole numbers are read up to this bound. -/
def wholeLimit : Nat := 0x10000000000000000

/-- The value of a whole number that is not negative. -/
def nat? (n : Numeral) : Option Nat :=
  if n.negative ∨ ¬ n.fraction.isEmpty ∨ n.power.isSome then none
  else if value n.whole < wholeLimit then some (value n.whole)
  else none

/-- The value of a whole number. -/
def int? (n : Numeral) : Option Int :=
  if ¬ n.fraction.isEmpty ∨ n.power.isSome then none
  else if n.negative then some (-(value n.whole : Int))
  else some (value n.whole)

/-- Append digits to a significand as long as it stays within 64 bits. The digits behind those
are left over. -/
def accumulate (significand : Nat) : List Char → Nat × List Char
  | [] => (significand, [])
  | c :: rest =>
    let longer := significand * 10 + digit c
    if longer < wholeLimit then accumulate longer rest else (significand, c :: rest)

/-- The greatest power of ten that is applied at once. -/
def greatestPower : Nat := 308

/-- A power of ten in double precision. -/
def powerOfTen (k : Nat) : Rat := Binary64.round ((10 : Rat) ^ (k : Int))

/-- Divide by a power of ten, in several steps if it is a great one. -/
def divide (x : Rat) (k : Nat) : Rat :=
  if x = 0 then 0
  else if k ≤ greatestPower then Binary64.round (x / powerOfTen k)
  else divide (Binary64.round (x / powerOfTen greatestPower)) (k - greatestPower)
termination_by k
decreasing_by
  simp only [greatestPower] at *
  omega

/-- A significand times a power of ten. -/
def scale (significand : Nat) (power : Int) : Rat :=
  let x := Binary64.round significand
  if power < 0 then divide x power.natAbs
  else if x = 0 then 0
  else if power.natAbs ≤ greatestPower then Binary64.round (x * powerOfTen power.natAbs)
  else Binary64.limit

/-- Powers of ten are counted up to this bound. -/
def powerLimit : Nat := 0x80000000

/-- The value in double precision; none if it is too large. -/
def binary64? (n : Numeral) : Option Binary64 :=
  let (leading, left) := accumulate 0 n.whole
  let (significand, dropped) := accumulate leading n.fraction
  let places : Int := (left.length : Int) - ((n.fraction.length : Int) - dropped.length)
  let magnitude : Rat :=
    match n.power with
    | none => scale significand places
    | some (negative, ds) =>
      let k := value ds
      if k < powerLimit then
        scale significand (if negative then places - k else places + k)
      else if negative ∨ significand = 0 then 0
      else Binary64.limit
  Binary64.ofMagnitude? n.negative magnitude

end Numeral
end InverterLink.Json
