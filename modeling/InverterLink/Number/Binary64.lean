/-!
# Double precision numbers

A double precision number is a sign and a magnitude with 53 significant bits, in steps of at
least `2 ^ -1074`. Arithmetic is exact on rational numbers and rounded afterwards:
`Binary64.round` gives the nearest number of this form, and the one with the even last bit when
two are equally near.
-/

namespace InverterLink

/-- The nearest whole number, and of two the even one. -/
def nearestEven (q : Rat) : Int :=
  let low := q.floor
  let rest := q - low
  if rest < 1 / 2 then low
  else if 1 / 2 < rest then low + 1
  else if low % 2 = 0 then low
  else low + 1

namespace Binary64

/-- The greatest `k` with `2 ^ k ≤ q`, for a positive `q`. -/
def exponent (q : Rat) : Int :=
  let k : Int := (q.num.natAbs.log2 : Int) - (q.den.log2 : Int)
  if (2 : Rat) ^ k ≤ q then k else k - 1

/-- The step between the numbers of the size of `q`. -/
def step (q : Rat) : Rat := (2 : Rat) ^ max (-1074) (exponent q - 52)

/-- The nearest number of this form to a magnitude. -/
def roundMagnitude (q : Rat) : Rat :=
  if q = 0 then 0 else nearestEven (q / step q) * step q

/-- The nearest number of this form, whatever its size. -/
def round (q : Rat) : Rat := if q < 0 then -roundMagnitude (-q) else roundMagnitude q

/-- The numbers from here on are too large. -/
def limit : Rat := (2 : Rat) ^ (1024 : Int)

end Binary64

/-- A finite double precision number. Zero has a sign. -/
structure Binary64 where
  negative : Bool
  magnitude : Rat
  exact : Binary64.round magnitude = magnitude ∧ 0 ≤ magnitude ∧ magnitude < Binary64.limit
  deriving DecidableEq

namespace Binary64

def toRat (x : Binary64) : Rat := if x.negative then -x.magnitude else x.magnitude

/-- A sign and a magnitude that needs no rounding. -/
def ofMagnitude? (negative : Bool) (magnitude : Rat) : Option Binary64 :=
  if h : round magnitude = magnitude ∧ 0 ≤ magnitude ∧ magnitude < limit then
    some ⟨negative, magnitude, h⟩
  else none

def zero : Binary64 := ⟨false, 0, by decide +kernel⟩

def half : Binary64 := ⟨false, 1 / 2, by decide +kernel⟩

def oneAndHalf : Binary64 := ⟨false, 3 / 2, by decide +kernel⟩

end Binary64
end InverterLink
