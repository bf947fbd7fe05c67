/-!
# Durations and instants

A duration is a whole count of nanoseconds below `2 ^ 64` seconds. Its text takes the largest
unit of s, ms, µs and ns in which it is at least one, and drops the zeros that end the fraction.
-/

namespace InverterLink

/-- The nanoseconds of a millisecond. -/
def nanosPerMilli : Nat := 1000000

/-- The nanoseconds of a second. -/
def nanosPerSecond : Nat := 1000000000

/-- The nanoseconds of `2 ^ 64` seconds. -/
def durationLimit : Nat := 0x10000000000000000 * nanosPerSecond

/-- A length of time in nanoseconds, below `2 ^ 64` seconds. -/
structure Duration where
  nanos : Nat
  inRange : nanos < durationLimit
  deriving DecidableEq

/-- A point in time, in nanoseconds since the clock started. -/
abbrev Instant := Nat

namespace Duration

def zero : Duration := ⟨0, by decide⟩

def longest : Duration := ⟨durationLimit - 1, by decide⟩

/-- A count of nanoseconds as a duration, if it is not too long for one. -/
def ofNanos? (n : Nat) : Option Duration :=
  if h : n < durationLimit then some ⟨n, h⟩ else none

/-- Whole seconds and further nanoseconds, which may carry into the seconds. -/
def ofParts? (secs nanos : Nat) : Option Duration := ofNanos? (secs * nanosPerSecond + nanos)

def ofMillis (n : UInt32) : Duration :=
  ⟨n.toNat * nanosPerMilli, by
    have := n.toNat_lt
    simp only [durationLimit, nanosPerSecond, nanosPerMilli]
    omega⟩

def secs (d : Duration) : Nat := d.nanos / nanosPerSecond

/-- The nanoseconds beyond the whole seconds. -/
def subsecNanos (d : Duration) : Nat := d.nanos % nanosPerSecond

def millis (d : Duration) : Nat := d.nanos / nanosPerMilli

/-- The sum, if it is not too long for a duration. -/
def add? (a b : Duration) : Option Duration := ofNanos? (a.nanos + b.nanos)

/-- The shorter of two durations. -/
def min (a b : Duration) : Duration := if b.nanos < a.nanos then b else a

/-- The time from `start` to `now`, none if `now` is the earlier. -/
def between (start now : Instant) : Duration := (ofNanos? (now - start)).getD longest

instance : LT Duration := ⟨fun a b => a.nanos < b.nanos⟩
instance : LE Duration := ⟨fun a b => a.nanos ≤ b.nanos⟩
instance (a b : Duration) : Decidable (a < b) := inferInstanceAs (Decidable (a.nanos < b.nanos))
instance (a b : Duration) : Decidable (a ≤ b) := inferInstanceAs (Decidable (a.nanos ≤ b.nanos))

/-- The first `places` decimal places of a fraction, without the zeros at their end. -/
def fraction (places n : Nat) : List Char :=
  let digits := Nat.toDigits 10 n
  let padded := List.replicate (places - digits.length) '0' ++ digits
  (padded.reverse.dropWhile (· == '0')).reverse

/-- A count of units and `places` further decimal places. -/
def decimal (whole rest places : Nat) (unit : String) : String :=
  let digits := fraction places rest
  let tail := if rest = 0 then "" else "." ++ String.ofList digits
  toString whole ++ tail ++ unit

def text (d : Duration) : String :=
  if nanosPerSecond ≤ d.nanos then decimal d.secs d.subsecNanos 9 "s"
  else if nanosPerMilli ≤ d.nanos then decimal d.millis (d.nanos % nanosPerMilli) 6 "ms"
  else if 1000 ≤ d.nanos then decimal (d.nanos / 1000) (d.nanos % 1000) 3 "µs"
  else decimal d.nanos 0 0 "ns"

end Duration
end InverterLink
