/-!
# Faults

A fault is a broken promise of a caller or a limit of the arithmetic, and not a failure of the
link. It ends the task that runs into it.
-/

namespace InverterLink

/-- The ways in which a task can break down. -/
inductive Fault where
  /-- A payload of this many bytes does not fit in a frame. -/
  | payloadTooLong (size : Nat)
  /-- A count of seconds below zero is no duration. -/
  | negativeSeconds
  /-- A count of seconds of `2 ^ 64` or more is no duration. -/
  | tooManySeconds
  /-- The sum of two durations is too long for a duration. -/
  | durationOverflow
  deriving DecidableEq

def Fault.message : Fault → String
  | payloadTooLong size => "payload of " ++ toString size ++ " bytes exceeds the maximum of 251"
  | negativeSeconds => "cannot convert float seconds to Duration: value is negative"
  | tooManySeconds => "cannot convert float seconds to Duration: value is either too big or NaN"
  | durationOverflow => "overflow when adding durations"

end InverterLink
