import InverterLink.LinkError
import InverterLink.Text.Record

/-!
# Links over TCP

Where a device is found on the network, and how the answer of the network to a request for a
socket becomes the result of a dial.
-/

namespace InverterLink

/-- The port of the devices. -/
def defaultPort : UInt16 := 8899

/-- Where a device is found, and how long a dial may take. -/
structure TcpSettings where
  host : String
  port : UInt16 := defaultPort
  timeout : Option Duration := some (.ofMillis 5000)
  deriving DecidableEq

namespace TcpSettings

/-- Host and port. A host with a colon in it stands between brackets. -/
def address (s : TcpSettings) : String :=
  let cs := s.host.toList
  let host := if cs.contains ':' ∧ cs.head? ≠ some '[' then "[" ++ s.host ++ "]" else s.host
  host ++ ":" ++ toString s.port.toNat

def recordText (s : TcpSettings) : String :=
  Text.record "TcpSettings" [("host", Text.quoted s.host), ("port", toString s.port.toNat),
    ("timeout", Text.optional (s.timeout.map Duration.text))]

end TcpSettings

/-- The answer of the network to a request for a socket. -/
structure NetworkAnswer where
  /-- The time until the answer, or nothing if it never comes. -/
  after : Option Duration
  outcome : Except IoError Unit

/-- The answer of a network without a route to anywhere. -/
def NetworkAnswer.unreachable : NetworkAnswer :=
  ⟨some .zero, .error ⟨.networkUnreachable, some "Network is unreachable (os error 101)"⟩⟩

/-- Dials a device over TCP. -/
structure TcpDialer where
  settings : TcpSettings
  deriving DecidableEq

namespace TcpDialer

def endpoint (d : TcpDialer) : String := d.settings.address

/-- The answer comes before the time of the dial is over. An answer at once always does. -/
def inTime (d : TcpDialer) (answer : NetworkAnswer) : Bool :=
  match answer.after, d.settings.timeout with
  | none, _ => false
  | some _, none => true
  | some after, some timeout => after = .zero ∨ after < timeout

/-- The result of a dial. Without an answer in time it is a timeout. -/
def dial (d : TcpDialer) (answer : NetworkAnswer) : LinkResult Unit :=
  if d.inTime answer then answer.outcome.mapError .connection else .error .timeout

def recordText (d : TcpDialer) : String :=
  Text.record "TcpDialer" [("settings", d.settings.recordText)]

end TcpDialer
end InverterLink
