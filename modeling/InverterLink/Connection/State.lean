import InverterLink.Broker.Basic
import InverterLink.Cache
import InverterLink.Connection.Builder
import InverterLink.Frame.Decoder

/-!
# The state of a connection

A connection shares one socket between all its callers. Several tasks work on it: the receiver
reads the socket and dials again when it is gone, the decoder publishes the datagrams that the
bytes hold, the broker fans them out, the cache keeper stores the responses, the logger logs
datagrams, and the reporter passes failures on. Calls send frames and wait for answers; each
query has a filter, which watches the datagrams for it. The write side of the socket is locked
while a call writes to it.
-/

namespace InverterLink.Connection

/-- A socket, numbered in the order of installation. -/
abbrev SocketId := Nat

/-- A call, numbered in the order of beginning. -/
abbrev CallId := Nat

/-- What the receiver hands to the decoder. -/
inductive Inbound where
  /-- A new socket was installed: forget the frame in progress. -/
  | restart
  | chunk (bytes : List UInt8)
  deriving DecidableEq

/-- What the receiver tells the reporter. -/
inductive Status where
  | received
  | failed (error : LinkError)
  deriving DecidableEq

/-- How many inbound items may wait for the decoder. -/
def inboundCapacity : Nat := 64

/-- How many statuses may wait for the reporter. -/
def statusCapacity : Nat := 16

/-- The most bytes that are read at once. -/
def readLimit : Nat := 1024

/-- What the receiver is doing. -/
inductive ReceiverPhase where
  /-- Wait for bytes from a socket. -/
  | reading (socket : SocketId)
  | forwarding (socket : SocketId) (bytes : List UInt8)
  | acknowledging (socket : SocketId)
  /-- Give up the socket after a failed read. -/
  | disconnecting (error : LinkError)
  | reporting (error : LinkError)
  | redialing (backoff : Backoff)
  | dialing (backoff : Backoff)
  /-- Make the dialed socket the current one. -/
  | installing
  | announcing (socket : SocketId)
  | excusing (backoff : Backoff) (error : LinkError)
  | pausing (backoff : Backoff) (deadline : Instant)
  /-- Give up the socket for good. -/
  | closing
  | stopped
  /-- The arithmetic of the backoff broke down. -/
  | broken (fault : Fault)
  deriving DecidableEq

/-- The receiver runs no more, and its queues get nothing more. -/
def ReceiverPhase.isOver : ReceiverPhase → Bool
  | stopped | broken _ => true
  | _ => false

/-- The socket whose read side the receiver holds. -/
def ReceiverPhase.socket? : ReceiverPhase → Option SocketId
  | reading k | forwarding k _ | acknowledging k | announcing k => some k
  | _ => none

inductive DecoderPhase where
  | idle
  /-- Publish what the last chunk completed. -/
  | publishing (rest : List Datagram)
  | stopped
  deriving DecidableEq

/-- What a caller wants. -/
inductive Job where
  /-- Write a frame to the socket. -/
  | send (frame : List UInt8)
  /-- Get the value of a variable. -/
  | query (identifier : Identifier)
  deriving DecidableEq

/-- What a caller gets. -/
inductive Outcome where
  /-- So many bytes were written. -/
  | sent (count : Nat)
  | answered (d : Datagram)
  deriving DecidableEq

/-- What a call is doing. -/
inductive CallPhase where
  | looking
  /-- Subscribe, and set up the filter. -/
  | subscribing
  /-- Make sure that the connection is not cancelled. -/
  | checking
  /-- Wait for the write side of the socket. -/
  | locking
  | writing (socket : SocketId) (rest : List UInt8)
  | flushing (socket : SocketId)
  | awaiting (deadline : Instant)
  | finished (result : LinkResult Outcome)
  /-- The caller lost interest. -/
  | dropped
  deriving DecidableEq

def CallPhase.isOver : CallPhase → Bool
  | finished _ | dropped => true
  | _ => false

/-- Watches the datagrams for a query, and keeps the first one of its identifier. -/
structure Filter where
  subscription : SubscriberId
  running : Bool := true
  slot : Option Datagram := none
  deriving DecidableEq

structure Call where
  job : Job
  phase : CallPhase
  filter : Option Filter := none
  deriving DecidableEq

structure State where
  settings : ConnectionBuilder
  now : Instant
  /-- The token of whoever built the connection is cancelled. -/
  parentCancelled : Bool
  /-- The token of the connection is cancelled. -/
  cancelled : Bool
  /-- How many sockets have been installed. -/
  sockets : Nat
  /-- The socket that calls write to. -/
  live : Option SocketId
  /-- What the connection says about itself. -/
  connected : Bool
  /-- The sockets that were given up. -/
  released : List SocketId := []
  /-- The call that has locked the write side of the socket. -/
  writer : Option CallId := none
  receiver : ReceiverPhase
  /-- What the decoder has not seen, the oldest first. -/
  inbound : List Inbound := []
  decoder : DecoderPhase := .idle
  /-- What the decoder knows about the bytes so far. -/
  parser : Decoder := {}
  broker : Broker Datagram
  cache : Cache := {}
  /-- The subscription of the cache keeper while it runs. -/
  cacheFeed : Option SubscriberId
  /-- The subscription of the logger while it runs. -/
  logFeed : Option SubscriberId
  /-- What the reporter has not seen, the oldest first. -/
  status : List Status := []
  reporter : Bool := true
  /-- The time of the last successful read that the reporter knows of. -/
  lastReceived : Option Instant := none
  calls : List Call := []
  deriving DecidableEq

/-- What can be seen of a connection at work. -/
inductive Event where
  | dialStarted (time : Instant)
  | dialFailed (error : LinkError)
  | installed (socket : SocketId)
  | released (socket : SocketId)
  | read (socket : SocketId) (bytes : List UInt8)
  | readFailed (socket : SocketId) (error : LinkError)
  | published (d : Datagram)
  | turned (turn : Turn Datagram)
  | stored (d : Datagram)
  | logged (d : Datagram)
  | reported (error : LinkError)
  | called (call : CallId)
  | wrote (call : CallId) (socket : SocketId) (bytes : List UInt8)
  | writeFailed (call : CallId) (socket : SocketId) (error : LinkError)
  | finished (call : CallId) (result : LinkResult Outcome)
  | subscribed (id : SubscriberId)
  | received (id : SubscriberId) (result : Received Datagram)
  deriving DecidableEq

namespace State

/-- A connection whose first dial has just succeeded. -/
def start (settings : ConnectionBuilder) (now : Instant) (cancelled : Bool) : State :=
  let (broker, cacheFeed) := ({} : Broker Datagram).start.subscribe
  let (broker, logFeed) :=
    if settings.logs then
      let (broker, id) := broker.subscribe
      (broker, some id)
    else (broker, none)
  { settings, now, parentCancelled := cancelled, cancelled
    sockets := 1, live := some 0, connected := true
    receiver := .reading 0
    broker, cacheFeed := some cacheFeed, logFeed }

def config (s : State) : ConnectionConfig := s.settings.config

/-- A socket has no future: it was given up, or the connection is cancelled. -/
def isClosed (s : State) (socket : SocketId) : Bool := s.cancelled || socket ∈ s.released

/-- Give up the current socket, if there is one. -/
def disconnect (s : State) : State × List Event :=
  ({ s with live := none, connected := false, released := s.live.toList ++ s.released },
    s.live.toList.map .released)

/-- Make a socket the current one. -/
def install (s : State) : State × List Event :=
  ({ s with sockets := s.sockets + 1, live := some s.sockets, connected := true },
    [.installed s.sockets])

/-- Hand an item to the decoder; none if there is no room. A decoder that has stopped takes
nothing. -/
def pushInbound (s : State) (item : Inbound) : Option (State × Bool) :=
  if s.decoder = .stopped then some (s, false)
  else if s.inbound.length < inboundCapacity then
    some ({ s with inbound := s.inbound ++ [item] }, true)
  else none

/-- Tell the reporter something; none if there is no room. It does not matter when the reporter
has stopped. -/
def pushStatus (s : State) (item : Status) : Option State :=
  if ¬ s.reporter then some s
  else if s.status.length < statusCapacity then some { s with status := s.status ++ [item] }
  else none

def updateCall (s : State) (call : CallId) (change : Call → Call) : State :=
  { s with calls := s.calls.modify call change }

def age (s : State) (time : Instant) : Duration := .between time s.now

end State

def recordText (s : State) : String :=
  Text.record "Connection" [("host", Text.quoted s.config.host),
    ("port", toString s.config.port.toNat), ("connected", Text.truth s.connected)]

end InverterLink.Connection
