import InverterLink.Backoff
import InverterLink.LinkError
import InverterLink.Run

/-!
# Trying until it works

A series of attempts with pauses between them. It ends with the first attempt that succeeds, when
the backoff gives up, or when its token is cancelled; a cancelled token goes before everything
else that could happen at the same time. Attempts take their time and may cancel the token.
-/

namespace InverterLink.Retry

/-- What a series is doing. -/
inductive Phase (α : Type) where
  /-- The next attempt has been called for, but not begun. -/
  | ready
  | attempting
  | pausing (deadline : Instant)
  | finished (result : LinkResult α)
  /-- The arithmetic of the backoff broke down. -/
  | broken (fault : Fault)
  deriving DecidableEq

structure State (α : Type) where
  backoff : Backoff
  now : Instant
  cancelled : Bool := false
  phase : Phase α := .ready
  deriving DecidableEq

/-- What happens to a series. -/
inductive Action (α : Type) where
  | cancel
  | wait (time : Instant)
  /-- The series notices that its token is cancelled. -/
  | halt
  /-- The attempt that was called for begins. -/
  | attempt
  /-- The attempt ends, after it may have cancelled the token. -/
  | complete (cancels : Bool) (result : LinkResult α) (draw : Draw)
  | resume

/-- What can be seen of a series. -/
inductive Event (α : Type) where
  | called (time : Instant)
  | begun (time : Instant)
  | failed (time : Instant) (error : LinkError)
  | finished (time : Instant) (result : LinkResult α)
  deriving DecidableEq

variable {α : Type}

/-- A series that starts now, and calls for its first attempt. -/
def begin (policy : BackoffPolicy) (now : Instant) (cancelled : Bool) :
    State α × List (Event α) :=
  ({ backoff := .begin policy now, now, cancelled }, [.called now])

def Phase.isOver : Phase α → Bool
  | .finished _ | .broken _ => true
  | _ => false

/-- End a series with a result. -/
def conclude (s : State α) (result : LinkResult α) : State α × List (Event α) :=
  ({ s with phase := .finished result }, [.finished s.now result])

/-- An attempt failed: pause, or give up. -/
def fail (s : State α) (error : LinkError) (draw : Draw) : State α × List (Event α) :=
  let (backoff, delay) := s.backoff.next s.now draw
  let s := { s with backoff }
  let (s, events) :=
    match delay with
    | .error fault => ({ s with phase := .broken fault }, [])
    | .ok (some delay) => ({ s with phase := .pausing (s.now + delay.nanos) }, [])
    | .ok none => conclude s (.error (.retriesExhausted (backoff.elapsed s.now) error))
  (s, .failed s.now error :: events)

/-- The effect of an action; none if it is not possible now. -/
def step (s : State α) : Action α → Option (State α × List (Event α))
  | .cancel => some ({ s with cancelled := true }, [])
  | .wait time => if s.now ≤ time then some ({ s with now := time }, []) else none
  | .halt =>
    if s.cancelled ∧ ¬ s.phase.isOver then some (conclude s (.error .cancelled)) else none
  | .attempt =>
    match s.phase, s.cancelled with
    | .ready, false => some ({ s with phase := .attempting }, [.begun s.now])
    | _, _ => none
  | .complete cancels result draw =>
    match s.phase, s.cancelled, result with
    | .attempting, false, .ok _ => some (conclude { s with cancelled := cancels } result)
    | .attempting, false, .error error => some (fail { s with cancelled := cancels } error draw)
    | _, _, _ => none
  | .resume =>
    match s.phase, s.cancelled with
    | .pausing deadline, false =>
      if deadline ≤ s.now then some ({ s with phase := .ready }, [.called s.now]) else none
    | _, _ => none

/-- The events of a run, if every action in it is possible. -/
def run (s : State α) (actions : List (Action α)) : Option (State α × List (Event α)) :=
  runSteps step s actions

end InverterLink.Retry
