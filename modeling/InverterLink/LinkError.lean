import InverterLink.Duration
import InverterLink.Text.Hex

/-!
# Failures

Every way in which work on a link can fail, the class that a caller branches on, and the text
that reports it.
-/

namespace InverterLink

/-- The classes of transport failures. -/
inductive IoKind where
  | connectionRefused
  | connectionReset
  | connectionAborted
  | brokenPipe
  | notConnected
  | timedOut
  | unexpectedEof
  | writeZero
  | networkUnreachable
  | other
  deriving DecidableEq

/-- What a failure of this class is called when it carries no text of its own. -/
def IoKind.description : IoKind → String
  | .connectionRefused => "connection refused"
  | .connectionReset => "connection reset"
  | .connectionAborted => "connection aborted"
  | .brokenPipe => "broken pipe"
  | .notConnected => "not connected"
  | .timedOut => "timed out"
  | .unexpectedEof => "unexpected end of file"
  | .writeZero => "write zero"
  | .networkUnreachable => "network unreachable"
  | .other => "other error"

/-- A transport failure: its class, and a text if it has one of its own. -/
structure IoError where
  kind : IoKind
  text : Option String := none
  deriving DecidableEq

def IoError.message (e : IoError) : String := e.text.getD e.kind.description

inductive LinkError where
  /-- Dialing, reading or writing failed. -/
  | connection (cause : IoError)
  | disconnected
  | timeout
  /-- The token that governs the operation was cancelled. -/
  | cancelled
  /-- A payload has the wrong count of bytes. -/
  | invalidLength (expected actual : Nat)
  /-- A datagram is not the answer to the question. -/
  | unexpectedResponse (text : String)
  /-- A byte stands for no command. -/
  | invalidCommand (code : UInt8)
  /-- A value is out of its range. -/
  | invalidData (text : String)
  /-- A series of attempts was given up; the last one failed for this reason. -/
  | retriesExhausted (elapsed : Duration) (source : LinkError)
  deriving DecidableEq

/-- What a caller branches on. -/
inductive ErrorKind where
  | transient
  | protocol
  | timeout
  | disconnected
  | cancelled
  deriving DecidableEq

namespace LinkError

def kind : LinkError → ErrorKind
  | connection _ | retriesExhausted .. => .transient
  | disconnected => .disconnected
  | timeout => .timeout
  | cancelled => .cancelled
  | invalidLength .. | unexpectedResponse _ | invalidCommand _ | invalidData _ => .protocol

/-- Sending again may help exactly for malformed or unexpected content. -/
def isRecoverable (e : LinkError) : Bool := e.kind == .protocol

def message : LinkError → String
  | connection cause => "Connection error: " ++ cause.message
  | disconnected => "Disconnected"
  | timeout => "Timeout"
  | cancelled => "Cancelled"
  | invalidLength expected actual =>
    "Invalid data length " ++ toString actual ++ ", expected " ++ toString expected
  | unexpectedResponse text => "Unexpected response: " ++ text
  | invalidCommand code => "Invalid command: 0x" ++ Hex.upper 2 code.toNat
  | invalidData text => "Invalid data: " ++ text
  | retriesExhausted elapsed source => "Gave up after " ++ elapsed.text ++ ": " ++ source.message

/-- The texts of the failures behind a failure, the nearest first. -/
def sources : LinkError → List String
  | connection cause => [cause.message]
  | retriesExhausted _ source => source.message :: source.sources
  | _ => []

end LinkError

/-- A result, or the failure that took its place. -/
abbrev LinkResult (α : Type) := Except LinkError α

instance exceptDecidableEq {ε α : Type} [DecidableEq ε] [DecidableEq α] :
    DecidableEq (Except ε α)
  | .ok a, .ok b => decidable_of_iff (a = b) ⟨congrArg _, Except.ok.inj⟩
  | .error a, .error b => decidable_of_iff (a = b) ⟨congrArg _, Except.error.inj⟩
  | .ok _, .error _ => isFalse nofun
  | .error _, .ok _ => isFalse nofun

end InverterLink
