import InverterLink.Retry

/-!
# Rehearsing a series of attempts

Attempts follow a script: each takes some time, may cancel the token, and has a given result. The
clock only moves when nothing else can happen, and then to the next time at which something
happens, in whole milliseconds.
-/

namespace InverterLink.Rehearsal

/-- The time at which a timer for `time` fires: the next whole millisecond. -/
def tick (time : Instant) : Instant := (time + (nanosPerMilli - 1)) / nanosPerMilli * nanosPerMilli

structure Attempt (α : Type) where
  /-- The milliseconds that the attempt takes, or none if it does not even wait. -/
  takes : Option Nat := none
  hangs : Bool := false
  /-- The attempt cancels the token before it ends. -/
  cancels : Bool := false
  result : LinkResult α

structure Series (α : Type) where
  state : Retry.State α
  script : Nat → Attempt α
  /-- The time at which the token is cancelled from outside. -/
  cancelAt : Option Instant
  /-- The times at which attempts were called for, the latest first. -/
  calls : List Instant
  /-- The times at which attempts began, the latest first. -/
  starts : List Instant := []
  /-- The time at which the attempt in progress ends. -/
  ends : Option Instant := none

namespace Series

variable {α : Type}

/-- Delays are not random in a rehearsal: each is as short as it can be. -/
def draw : Draw := fun low _ => low

/-- A series that starts at time zero. -/
def begin (policy : BackoffPolicy) (script : Nat → Attempt α) (cancelAt : Option Instant) :
    Series α :=
  let (state, _) := Retry.begin policy 0 (cancelAt = some 0)
  { state, script, cancelAt, calls := [0] }

def current (s : Series α) : Attempt α := s.script (s.starts.length - 1)

def act (s : Series α) (action : Retry.Action α) : Option (Series α) := do
  let (state, events) ← Retry.step s.state action
  let called := events.filterMap fun
    | .called t => some t
    | _ => none
  let begun := events.filterMap fun
    | .begun t => some t
    | _ => none
  return { s with state, calls := called ++ s.calls, starts := begun ++ s.starts }

/-- Begin an attempt, and find out when it ends. -/
def attempt (s : Series α) : Option (Series α) := do
  let s ← s.act .attempt
  let ends :=
    if s.current.hangs then none
    else some (tick (s.state.now + (s.current.takes.getD 0) * nanosPerMilli))
  return { s with ends }

/-- End the attempt in progress, if its time has come. -/
def complete (s : Series α) : Option (Series α) := do
  let ends ← s.ends
  if s.state.now < ends then none
  s.act (.complete s.current.cancels s.current.result draw)

/-- The next time at which something can happen on its own. -/
def nextTime (s : Series α) : Option Instant :=
  let own :=
    match s.state.phase with
    | .attempting => s.ends
    | .pausing deadline => some (tick deadline)
    | _ => none
  ([own, s.cancelAt].filterMap id |>.filter (s.state.now < ·)).min?

/-- Let time pass until something can happen, and cancel the token if that is due. -/
def advance (s : Series α) : Option (Series α) := do
  let time ← s.nextTime
  let s ← s.act (.wait time)
  if s.cancelAt = some time then s.act .cancel else return s

/-- The pause is over, if its time has come. -/
def resume (s : Series α) : Option (Series α) := s.act .resume

/-- One thing that happens. -/
def progress (s : Series α) : Option (Series α) :=
  s.act .halt <|> s.attempt <|> s.complete <|> s.resume <|> s.advance

/-- Go on until the series is over or nothing more can happen, for at most `fuel` things. -/
def run (s : Series α) : Nat → Series α
  | 0 => s
  | fuel + 1 =>
    if s.state.phase.isOver then s
    else
      match s.progress with
      | none => s
      | some s' => s'.run fuel

/-- How many things may happen in a rehearsed series. -/
def patience : Nat := 1000000

/-- The result of a series and the time of its end. -/
def result? (s : Series α) : Option (LinkResult α) :=
  match s.state.phase with
  | .finished result => some result
  | _ => none

end Series
end InverterLink.Rehearsal
