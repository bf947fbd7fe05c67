import InverterLink.Connection.State
import InverterLink.Frame.Builder
import InverterLink.InverterState

/-!
# Typed queries and writes

A typed query refuses a datagram that is no response to it, and reads the number that the
response holds. A write is refused before anything is sent if its payload does not fit.
-/

namespace InverterLink.Connection

inductive QueryKind where
  | datagram
  | float
  | signedLong
  | word
  | byte
  | inverterState
  deriving DecidableEq

inductive QueryValue where
  | datagram (d : Datagram)
  | floatBits (bits : UInt32)
  | signedLong (n : Int32)
  | word (n : UInt16)
  | byte (n : UInt8)
  | inverterState (state : InverterState)
  deriving DecidableEq

namespace QueryKind

/-- The variable that a query asks for. The operating state has a variable of its own. -/
def identifier (kind : QueryKind) (id : Identifier) : Identifier :=
  if kind = .inverterState then .inverterState else id

/-- Read the value of the datagram that answers a query. -/
def read (kind : QueryKind) (id : Identifier) (d : Datagram) : LinkResult QueryValue :=
  let response : LinkResult Datagram := do
    d.ensureResponseTo (kind.identifier id)
    return d
  match kind with
  | datagram => .ok (.datagram d)
  | float => do return .floatBits (← (← response).floatBits)
  | signedLong => do return .signedLong (← (← response).signedLong)
  | word => do return .word (← (← response).word)
  | byte => do return .byte (← (← response).byte)
  | inverterState => do return .inverterState (← InverterState.ofByte (← (← response).byte))

def job (kind : QueryKind) (id : Identifier) : Job := .query (kind.identifier id)

/-- The value that a call for a query ends with. A call that only sends a frame has none. -/
def value (kind : QueryKind) (id : Identifier) (result : LinkResult Outcome) :
    LinkResult QueryValue := do
  match ← result with
  | .answered d => kind.read id d
  | .sent _ => .error .disconnected

end QueryKind

/-- The job of a write. A payload that does not fit is refused. -/
def writeJob (id : Identifier) (payload : List UInt8) : LinkResult Job :=
  if maxPayload < payload.length then .error (.invalidLength maxPayload payload.length)
  else .ok (.send (Datagram.encode ⟨.write, id, payload⟩))

end InverterLink.Connection
