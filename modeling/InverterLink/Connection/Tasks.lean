import InverterLink.Connection.State

/-!
# Decoder, cache keeper, logger and reporter

The decoder publishes the datagrams of each chunk before it looks at the next one, and forgets a
frame in progress when a new socket is announced. The cache keeper stores the responses that the
broker hands to it, the logger logs everything, and the reporter keeps the time of the last read
and passes failures on. Cancellation ends each of them when it would look for more to do.
-/

namespace InverterLink.Connection.State

/-- The decoder ends, and what it has not seen is lost. -/
def stopDecoder (s : State) : State := { s with decoder := .stopped, inbound := [] }

/-- What the decoder has to publish behind a chunk. -/
def publishing (datagrams : List Datagram) : DecoderPhase :=
  if datagrams = [] then .idle else .publishing datagrams

def stepDecoder (s : State) : Option (State × List Event) :=
  match s.decoder with
  | .idle =>
    if s.cancelled then some (s.stopDecoder, [])
    else
      match s.inbound with
      | .restart :: rest => some ({ s with inbound := rest, parser := s.parser.reset }, [])
      | .chunk bytes :: rest =>
        let (parser, datagrams) := s.parser.decode bytes
        some ({ s with inbound := rest, parser, decoder := publishing datagrams }, [])
      | [] => if s.receiver.isOver then some (s.stopDecoder, []) else none
  | .publishing [] => some ({ s with decoder := .idle }, [])
  | .publishing (d :: rest) =>
    match s.broker.offer d with
    | (broker, .accepted) =>
      some ({ s with broker, decoder := publishing rest }, [.published d])
    | (_, .full) => none
    | (_, .stopped) => some (s.stopDecoder, [])
  | .stopped => none

/-- A turn of the control loop of the broker. -/
def stepBroker (s : State) : Option (State × List Event) :=
  (s.broker.turn s.cancelled).map fun (broker, turn) => ({ s with broker }, [.turned turn])

/-- What a task finds in its subscription. A cancelled task does not look. -/
def watch (s : State) (id : SubscriberId) : State × Received Datagram :=
  if s.cancelled then (s, .closed)
  else
    let (broker, received) := s.broker.receive id
    ({ s with broker }, received)

def stepCacheKeeper (s : State) : Option (State × List Event) := do
  let id ← s.cacheFeed
  match s.watch id with
  | (s, .message d) =>
    if d.isResponse then return ({ s with cache := s.cache.put d s.now }, [.stored d])
    else return (s, [])
  | (_, .waiting) => none
  | (s, .closed) => return ({ s with broker := s.broker.release id, cacheFeed := none }, [])

def stepLogger (s : State) : Option (State × List Event) := do
  let id ← s.logFeed
  match s.watch id with
  | (s, .message d) => return (s, [.logged d])
  | (_, .waiting) => none
  | (s, .closed) => return ({ s with broker := s.broker.release id, logFeed := none }, [])

/-- The reporter ends, and what it has not seen is lost. -/
def stopReporter (s : State) : State := { s with reporter := false, status := [] }

def stepReporter (s : State) : Option (State × List Event) :=
  if ¬ s.reporter then none
  else if s.cancelled then some (s.stopReporter, [])
  else
    match s.status with
    | .received :: rest => some ({ s with status := rest, lastReceived := some s.now }, [])
    | .failed error :: rest =>
      some ({ s with status := rest }, if s.settings.reportsErrors then [.reported error] else [])
    | [] => if s.receiver.isOver then some (s.stopReporter, []) else none

end InverterLink.Connection.State
