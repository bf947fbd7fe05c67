import InverterLink.Number.Seconds

/-!
# Growing delays

A backoff gives the delays between the attempts of a series. They grow by a constant factor up
to a ceiling, and may be spread around that value at random. It gives up when a delay would end
after the longest time that a series may take.
-/

namespace InverterLink

/-- How the delays of a series develop. -/
structure BackoffPolicy where
  /-- The first delay of a series. -/
  initialInterval : Duration := .ofMillis 500
  /-- The factor from one delay to the next. -/
  multiplier : Binary64 := .oneAndHalf
  /-- The relative spread of a delay; there is none at zero. -/
  randomizationFactor : Binary64 := .half
  /-- The ceiling of the growth. -/
  maxInterval : Duration := .ofMillis 60000
  /-- The longest time of a series; at zero it never ends. -/
  maxElapsedTime : Duration := .ofMillis 60000
  deriving DecidableEq

/-- A source of chance: picks a number between two others. -/
abbrev Draw := Rat → Rat → Rat

structure Backoff where
  policy : BackoffPolicy
  /-- The next delay before it is spread. -/
  interval : Duration
  start : Instant
  deriving DecidableEq

namespace Backoff

/-- A series that starts now. -/
def begin (policy : BackoffPolicy) (now : Instant) : Backoff :=
  ⟨policy, policy.initialInterval, now⟩

def reset (b : Backoff) (now : Instant) : Backoff := begin b.policy now

/-- The time since the start of the series. -/
def elapsed (b : Backoff) (now : Instant) : Duration := .between b.start now

/-- The nearest number to `x` between two others. -/
def within (low high x : Rat) : Rat := if x < low then low else if high < x then high else x

/-- The least and greatest count of seconds of a delay around `interval`; nothing if delays are
not spread. -/
def spread? (policy : BackoffPolicy) (interval : Duration) : Option (Rat × Rat) :=
  let factor := policy.randomizationFactor.toRat
  if factor ≤ 0 ∨ interval = .zero then none
  else
    let middle := interval.seconds
    let delta := Binary64.round (middle * factor)
    let low := Binary64.round (middle - delta)
    some (if low < 0 then 0 else low, Binary64.round (middle + delta))

def randomize (policy : BackoffPolicy) (interval : Duration) (draw : Draw) :
    Except Fault Duration :=
  match spread? policy interval with
  | none => .ok interval
  | some (low, high) => Duration.ofSeconds (within low high (draw low high))

/-- The interval that follows `interval`. -/
def grow (policy : BackoffPolicy) (interval : Duration) : Except Fault Duration :=
  (interval.scale policy.multiplier).map (·.min policy.maxInterval)

/-- The delay fits into the time of the series. -/
def admits (b : Backoff) (now : Instant) (delay : Duration) : Except Fault Bool :=
  if b.policy.maxElapsedTime = .zero then .ok true
  else
    match (b.elapsed now).add? delay with
    | some total => .ok (total ≤ b.policy.maxElapsedTime)
    | none => .error .durationOverflow

/-- The delay before the next attempt, or none if the series is over. A fault in the arithmetic
leaves the interval as far as it got. -/
def next (b : Backoff) (now : Instant) (draw : Draw) : Backoff × Except Fault (Option Duration) :=
  match randomize b.policy b.interval draw, grow b.policy b.interval with
  | .error fault, _ | .ok _, .error fault => (b, .error fault)
  | .ok delay, .ok interval =>
    ({ b with interval }, (b.admits now delay).map fun fits => if fits then some delay else none)

/-- The next delays, at most `n` of them; a fault ends them. -/
def take (b : Backoff) (now : Instant) (draw : Draw) :
    Nat → Backoff × Except Fault (List Duration)
  | 0 => (b, .ok [])
  | n + 1 =>
    match b.next now draw with
    | (b', .error fault) => (b', .error fault)
    | (b', .ok none) => (b', .ok [])
    | (b', .ok (some delay)) =>
      let (b'', rest) := b'.take now draw n
      (b'', rest.map (delay :: ·))

end Backoff
end InverterLink
