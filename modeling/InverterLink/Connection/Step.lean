import InverterLink.Connection.Call
import InverterLink.Connection.Receiver
import InverterLink.Connection.Tasks
import InverterLink.Run

/-!
# Runs of a connection

Everything that can happen to a connection is an action: a step of one of its tasks, something
that the device or the network does, something that a user of the connection does, or the
passing of time. A run is any sequence of possible actions.
-/

namespace InverterLink.Connection

/-- What can happen to a connection. -/
inductive Action where
  | stepReceiver (draw : Draw)
  | stepDecoder
  | stepBroker
  | stepCacheKeeper
  | stepLogger
  | stepReporter
  | stepCall (call : CallId)
  | stepFilter (call : CallId)
  | dialed (result : LinkResult Unit)
  | read (result : ReadResult)
  /-- The socket takes some bytes of a call. -/
  | wrote (call : CallId) (count : Nat)
  /-- The socket refuses the bytes of a call. -/
  | refused (call : CallId) (error : IoError)
  /-- The socket has sent all bytes of a call. -/
  | flushed (call : CallId)
  | call (job : Job)
  | dropCall (call : CallId)
  | subscribe
  | unsubscribe (id : SubscriberId)
  | receive (id : SubscriberId)
  /-- Cancel the token of the connection. -/
  | shutdown
  /-- Cancel the token of whoever built the connection, and with it that of the connection. -/
  | cancelParent
  | wait (time : Instant)

namespace State

/-- A task of the connection or the filter of a query reads the subscription. -/
def isTaken (s : State) (id : SubscriberId) : Bool :=
  s.cacheFeed = some id || s.logFeed = some id ||
    s.calls.any fun c => c.filter.any (·.subscription = id)

/-- A user of the connection holds the subscription. -/
def isUserHeld (s : State) (id : SubscriberId) : Bool := s.broker.isHeld id && !s.isTaken id

/-- The effect of an action; none if it is not possible now. -/
def step (s : State) : Action → Option (State × List Event)
  | .stepReceiver draw => s.stepReceiver draw
  | .stepDecoder => s.stepDecoder
  | .stepBroker => s.stepBroker
  | .stepCacheKeeper => s.stepCacheKeeper
  | .stepLogger => s.stepLogger
  | .stepReporter => s.stepReporter
  | .stepCall call => s.stepCall call
  | .stepFilter call => s.stepFilter call
  | .dialed result => s.dialed result
  | .read result => s.read result
  | .wrote call count => s.wrote call count
  | .refused call error => s.refused call error
  | .flushed call => s.flushed call
  | .call job => some (s.call job)
  | .dropCall call => s.dropCall call
  | .subscribe =>
    let (broker, id) := s.broker.subscribe
    some ({ s with broker }, [.subscribed id])
  | .unsubscribe id =>
    if s.isUserHeld id then some ({ s with broker := s.broker.release id }, []) else none
  | .receive id =>
    if s.isUserHeld id then
      match s.broker.receive id with
      | (_, .waiting) => none
      | (broker, result) => some ({ s with broker }, [.received id result])
    else none
  | .shutdown => some ({ s with cancelled := true }, [])
  | .cancelParent => some ({ s with parentCancelled := true, cancelled := true }, [])
  | .wait time => if s.now ≤ time then some ({ s with now := time }, []) else none

/-- The events of a run, if every action in it is possible. -/
def run (s : State) (actions : List Action) : Option (State × List Event) :=
  runSteps step s actions

end State
end InverterLink.Connection
