import InverterLink.Connection.State
import InverterLink.Frame.Builder

/-!
# Calls

A call sends one frame. A query first looks for a fresh answer in the cache; otherwise it
subscribes, sends a request and waits for the first datagram of its identifier. Whatever ends
the query ends its filter too. A failed write gives up the socket, so that the receiver dials
again.
-/

namespace InverterLink.Connection

/-- The frame that a call sends. -/
def Job.frame : Job → List UInt8
  | send frame => frame
  | query identifier => (Datagram.read identifier).encode

def Job.first : Job → CallPhase
  | send _ => .checking
  | query _ => .looking

namespace State

def call (s : State) (job : Job) : State × List Event :=
  ({ s with calls := s.calls ++ [{ job, phase := job.first }] }, [.called s.calls.length])

def enter (s : State) (call : CallId) (phase : CallPhase) : State :=
  s.updateCall call fun c => { c with phase }

/-- Unlock the write side of the socket if a call has locked it. -/
def unlock (s : State) (call : CallId) : State :=
  if s.writer = some call then { s with writer := none } else s

def finish (s : State) (call : CallId) (result : LinkResult Outcome) : State × List Event :=
  ((s.unlock call).enter call (.finished result), [.finished call result])

/-- The cached answer to a query that is fresh enough. -/
def fresh? (s : State) (identifier : Identifier) : Option Datagram := do
  let entry ← s.cache.get? identifier
  if s.age entry.stored < s.config.queryTimeout then some entry.datagram else none

/-- What the filter of a query has for it: a datagram, or the certainty that none will come. -/
def answer? (c : Call) : Option (LinkResult Outcome) := do
  let filter ← c.filter
  match filter.slot, filter.running with
  | some d, _ => some (.ok (.answered d))
  | none, true => none
  | none, false => some (.error .cancelled)

def stepCall (s : State) (call : CallId) : Option (State × List Event) := do
  let c ← s.calls[call]?
  match c.phase, c.job with
  | .looking, .query identifier =>
    match s.fresh? identifier with
    | some d => return s.finish call (.ok (.answered d))
    | none => return (s.enter call .subscribing, [])
  | .looking, .send _ => none
  | .subscribing, _ =>
    let (broker, id) := s.broker.subscribe
    return ({ s with broker }.updateCall call fun c =>
      { c with phase := .checking, filter := some { subscription := id } }, [.subscribed id])
  | .checking, _ =>
    if s.cancelled then return s.finish call (.error .cancelled)
    else return (s.enter call .locking, [])
  | .locking, job =>
    if s.writer.isSome then none
    else
      match s.live with
      | none => return s.finish call (.error .disconnected)
      | some socket =>
        return ({ s with writer := some call }.enter call (.writing socket job.frame), [])
  | .writing socket [], _ => return (s.enter call (.flushing socket), [])
  | .writing _ (_ :: _), _ | .flushing _, _ => none
  | .awaiting deadline, _ =>
    match answer? c with
    | some result => return s.finish call result
    | none => if deadline ≤ s.now then return s.finish call (.error .timeout) else none
  | .finished _, _ | .dropped, _ => none

/-- A write or flush failed: give up the socket. -/
def failWrite (s : State) (call : CallId) (socket : SocketId) (error : IoError) :
    State × List Event :=
  let (s, released) := s.disconnect
  let (s, finished) := s.finish call (.error (.connection error))
  (s, .writeFailed call socket (.connection error) :: (released ++ finished))

/-- The socket takes the first `n` bytes that a call has to write, at least one. -/
def wrote (s : State) (call : CallId) (n : Nat) : Option (State × List Event) := do
  let c ← s.calls[call]?
  match c.phase with
  | .writing socket rest =>
    if 0 < n ∧ n ≤ rest.length then
      return (s.enter call (.writing socket (rest.drop n)), [.wrote call socket (rest.take n)])
    else none
  | _ => none

/-- The socket refuses to write or to flush. -/
def refused (s : State) (call : CallId) (error : IoError) : Option (State × List Event) := do
  let c ← s.calls[call]?
  match c.phase with
  | .writing socket (_ :: _) | .flushing socket => return s.failWrite call socket error
  | _ => none

/-- The socket has sent all that was written. A query now waits for its answer. -/
def flushed (s : State) (call : CallId) : Option (State × List Event) := do
  let c ← s.calls[call]?
  match c.phase, c.job with
  | .flushing _, .send frame => return s.finish call (.ok (.sent frame.length))
  | .flushing _, .query _ =>
    return ((s.unlock call).enter call (.awaiting (s.now + s.config.queryTimeout.nanos)), [])
  | _, _ => none

/-- The caller loses interest in a call. -/
def dropCall (s : State) (call : CallId) : Option (State × List Event) := do
  let c ← s.calls[call]?
  if c.phase.isOver then none
  else return ((s.unlock call).enter call .dropped, [])

def updateFilter (s : State) (call : CallId) (change : Filter → Filter) : State :=
  s.updateCall call fun c => { c with filter := c.filter.map change }

/-- End a filter and its subscription. -/
def endFilter (s : State) (call : CallId) (filter : Filter) : State :=
  { s with broker := s.broker.release filter.subscription }.updateFilter call fun f =>
    { f with running := false }

/-- The filter looks at a datagram. The first one of its identifier takes the slot. -/
def Filter.look (f : Filter) (job : Job) (d : Datagram) : Filter :=
  match job, f.slot with
  | .query identifier, none => if d.identifier = identifier then { f with slot := some d } else f
  | _, _ => f

def stepFilter (s : State) (call : CallId) : Option (State × List Event) := do
  let c ← s.calls[call]?
  let filter ← c.filter
  if ¬ filter.running then none
  else if c.phase.isOver then return (s.endFilter call filter, [])
  else
    match s.broker.receive filter.subscription with
    | (broker, .message d) =>
      return ({ s with broker }.updateFilter call fun f => Filter.look f c.job d,
        [.received filter.subscription (.message d)])
    | (_, .waiting) => none
    | (_, .closed) => return (s.endFilter call filter, [])

end State
end InverterLink.Connection
