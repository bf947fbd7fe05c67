import InverterLink.Broker.Basic
import InverterLink.LinkError
import InverterLink.Run

/-!
# Runs of a broker

A session is a broker together with the token that cancels its loop and the publishers that
wait for room. Everybody acts one step at a time and in any order: a step of a session says what
an action does, and what can be seen of it.
-/

namespace InverterLink.Broker

/-- A broker, its token and the publishers in progress. -/
structure Session (μ : Type) where
  broker : Broker μ := {}
  cancelled : Bool := false
  /-- The messages that are being published, each under the number of its call. -/
  publishing : List (Nat × μ) := []
  /-- How many messages publishers have begun to publish. -/
  begun : Nat := 0
  deriving DecidableEq

namespace Session

variable {μ : Type}

/-- What somebody does. -/
inductive Action (μ : Type) where
  | start
  | discard
  | cancel
  | addHandle
  | dropHandle
  | subscribe
  | release (id : SubscriberId)
  /-- Begin to publish a message. -/
  | publish (m : μ)
  /-- A publisher looks for room. -/
  | enter (call : Nat)
  /-- A publisher gives up. -/
  | abandon (call : Nat)
  | receive (id : SubscriberId)
  /-- The loop takes a turn. -/
  | turn
  deriving DecidableEq

/-- What can be seen of an action. -/
inductive Event (μ : Type) where
  | quiet
  | subscribed (id : SubscriberId)
  | publishing (call : Nat)
  | published (call : Nat) (result : LinkResult Unit)
  | received (id : SubscriberId) (result : Received μ)
  | turned (turn : Turn μ)
  deriving DecidableEq

/-- Remove the message of a call. -/
def forget (s : Session μ) (call : Nat) : Session μ :=
  { s with publishing := s.publishing.filter (·.1 ≠ call) }

/-- A publisher looks for room. It goes on waiting if there is none, and fails if the loop has
stopped. -/
def enter (s : Session μ) (call : Nat) : Option (Session μ × Event μ) := do
  let m ← s.publishing.lookup call
  match s.broker.offer m with
  | (_, .full) => none
  | (broker, .accepted) => return ({ s.forget call with broker }, .published call (.ok ()))
  | (_, .stopped) => return (s.forget call, .published call (.error .cancelled))

/-- The effect of an action; none if it is not possible now. Handles are needed to subscribe and
to publish. -/
def step (s : Session μ) : Action μ → Option (Session μ × Event μ)
  | .start => some ({ s with broker := s.broker.start }, .quiet)
  | .discard => some ({ s with broker := s.broker.discard }, .quiet)
  | .cancel => some ({ s with cancelled := true }, .quiet)
  | .addHandle =>
    if s.broker.handles = 0 then none
    else some ({ s with broker := { s.broker with handles := s.broker.handles + 1 } }, .quiet)
  | .dropHandle =>
    if s.broker.handles = 0 ∨ (s.broker.handles = 1 ∧ s.publishing ≠ []) then none
    else some ({ s with broker := { s.broker with handles := s.broker.handles - 1 } }, .quiet)
  | .subscribe =>
    if s.broker.handles = 0 then none
    else
      let (broker, id) := s.broker.subscribe
      some ({ s with broker }, .subscribed id)
  | .release id =>
    if s.broker.isHeld id then some ({ s with broker := s.broker.release id }, .quiet) else none
  | .publish m =>
    if s.broker.handles = 0 then none
    else
      some ({ s with publishing := s.publishing ++ [(s.begun, m)], begun := s.begun + 1 },
        .publishing s.begun)
  | .enter call => s.enter call
  | .abandon call =>
    if (s.publishing.lookup call).isSome then some (s.forget call, .quiet) else none
  | .receive id =>
    if s.broker.isHeld id then
      match s.broker.receive id with
      | (_, .waiting) => none
      | (broker, result) => some ({ s with broker }, .received id result)
    else none
  | .turn =>
    (s.broker.turn s.cancelled).map fun (broker, turn) => ({ s with broker }, .turned turn)

/-- The events of a run, if every action in it is possible. -/
def run (s : Session μ) (actions : List (Action μ)) : Option (Session μ × List (Event μ)) :=
  runSteps (showing step) s actions

/-- Take turns of the loop while there are any, at most `fuel`. -/
def turns (s : Session μ) : Nat → Session μ
  | 0 => s
  | fuel + 1 =>
    match s.step .turn with
    | none => s
    | some (s', _) => s'.turns fuel

/-- Let the loop do all that it can. -/
def settle (s : Session μ) : Session μ := s.turns s.broker.workLeft

end Session
end InverterLink.Broker
