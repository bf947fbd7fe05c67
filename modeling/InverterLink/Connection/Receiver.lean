import InverterLink.Connection.State

/-!
# The receiver

The receiver alone reads sockets and dials. It hands every chunk that it reads to the decoder and
acknowledges it to the reporter. When a socket is gone, it dials until it has another one, with
pauses that the backoff of the connection gives; when the backoff gives up, it starts over at
once. Cancellation ends it at the next point where it would wait for the device or the clock.
-/

namespace InverterLink.Connection

/-- What a read brings. -/
inductive ReadResult where
  | bytes (chunk : List UInt8)
  | endOfStream
  | failed (error : IoError)
  deriving DecidableEq

/-- The failure of a read; bytes are none. -/
def ReadResult.error? : ReadResult → Option LinkError
  | bytes _ => none
  | endOfStream => some (.connection ⟨.unexpectedEof, some "connection closed by device"⟩)
  | failed error => some (.connection error)

namespace State

/-- Begin to dial, with a backoff of its own. -/
def startRedial (s : State) : State :=
  { s with receiver := .redialing (.begin s.config.backoff s.now) }

/-- A dial failed: pause, or start the backoff over and dial at once. -/
def pause (s : State) (backoff : Backoff) (draw : Draw) : State :=
  let (backoff, delay) := backoff.next s.now draw
  { s with
    receiver :=
      match delay with
      | .error fault => .broken fault
      | .ok (some delay) => .pausing backoff (s.now + delay.nanos)
      | .ok none => .redialing (backoff.reset s.now) }

/-- What the receiver does by itself. -/
def stepReceiver (s : State) (draw : Draw) : Option (State × List Event) :=
  match s.receiver with
  | .reading socket =>
    if s.cancelled then some ({ s with receiver := .closing }, [])
    else if s.isClosed socket then some (s.startRedial, [])
    else none
  | .forwarding socket bytes =>
    (s.pushInbound (.chunk bytes)).map fun (s, taken) =>
      ({ s with receiver := if taken then .acknowledging socket else .closing }, [])
  | .acknowledging socket =>
    (s.pushStatus .received).map fun s => ({ s with receiver := .reading socket }, [])
  | .disconnecting error =>
    if s.writer.isSome then none
    else
      let (s, events) := s.disconnect
      some ({ s with receiver := .reporting error }, events)
  | .reporting error => (s.pushStatus (.failed error)).map fun s => (s.startRedial, [])
  | .redialing backoff =>
    if s.cancelled then some ({ s with receiver := .closing }, [])
    else some ({ s with receiver := .dialing backoff }, [.dialStarted s.now])
  | .dialing _ => if s.cancelled then some ({ s with receiver := .closing }, []) else none
  | .installing =>
    if s.writer.isSome then none
    else
      let socket := s.sockets
      let (s, events) := s.install
      some ({ s with receiver := .announcing socket }, events)
  | .announcing socket =>
    (s.pushInbound .restart).map fun (s, taken) =>
      ({ s with receiver := if taken then .reading socket else .closing }, [])
  | .excusing backoff error =>
    (s.pushStatus (.failed error)).map fun s => (s.pause backoff draw, [])
  | .pausing backoff deadline =>
    if s.cancelled then some ({ s with receiver := .closing }, [])
    else if deadline ≤ s.now then some ({ s with receiver := .redialing backoff }, [])
    else none
  | .closing =>
    if s.writer.isSome then none
    else
      let (s, events) := s.disconnect
      some ({ s with receiver := .stopped }, events)
  | .stopped | .broken _ => none

/-- The dial that the receiver waits for ends. -/
def dialed (s : State) (result : LinkResult Unit) : Option (State × List Event) :=
  match s.receiver, s.cancelled, result with
  | .dialing _, false, .ok () => some ({ s with receiver := .installing }, [])
  | .dialing backoff, false, .error error =>
    some ({ s with receiver := .excusing backoff error }, [.dialFailed error])
  | _, _, _ => none

/-- The socket that the receiver waits for has something to read, or fails. -/
def read (s : State) (result : ReadResult) : Option (State × List Event) :=
  match s.receiver with
  | .reading socket =>
    if s.isClosed socket then none
    else
      match result with
      | .bytes chunk =>
        if chunk = [] ∨ readLimit < chunk.length then none
        else some ({ s with receiver := .forwarding socket chunk }, [.read socket chunk])
      | .endOfStream | .failed _ =>
        result.error?.map fun error =>
          ({ s with receiver := .disconnecting error }, [.readFailed socket error])
  | _ => none

end State
end InverterLink.Connection
