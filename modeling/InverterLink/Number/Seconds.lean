import InverterLink.Duration
import InverterLink.Fault
import InverterLink.Number.Binary64

/-!
# Durations as counts of seconds

Scaling a duration goes through its count of seconds in double precision. The way back is exact
up to the nearest nanosecond, and refuses counts that are below zero or too large.
-/

namespace InverterLink.Duration

/-- The seconds of a duration in double precision: whole seconds and fraction are rounded each,
and their sum once more. -/
def seconds (d : Duration) : Rat :=
  Binary64.round (Binary64.round d.secs + Binary64.round ((d.subsecNanos : Rat) / nanosPerSecond))

/-- The duration of a count of seconds, to the nearest nanosecond. -/
def ofSeconds (x : Rat) : Except Fault Duration :=
  if x < 0 then .error .negativeSeconds
  else
    match ofNanos? (nearestEven (x * nanosPerSecond)).toNat with
    | some d => .ok d
    | none => .error .tooManySeconds

/-- A duration times a number. -/
def scale (d : Duration) (x : Binary64) : Except Fault Duration :=
  ofSeconds (Binary64.round (d.seconds * x.toRat))

end InverterLink.Duration
