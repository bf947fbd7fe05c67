import InverterLink.Settings

/-!
# Building connections

What a connection needs before it can start: settings, whom to tell about failures and
datagrams, and how to dial.
-/

namespace InverterLink

/-- A connection that has not been started. -/
structure ConnectionBuilder where
  config : ConnectionConfig
  reportsErrors : Bool := false
  logs : Bool := false
  /-- What a dialer of the caller's choice dials. Without one, the host is dialed over TCP. -/
  endpoint : Option String := none
  deriving DecidableEq

namespace ConnectionBuilder

def ofHost (host : String) : ConnectionBuilder := { config := .ofHost host }

/-- What to dial. Without a dialer there has to be a host. -/
def dialed (b : ConnectionBuilder) : LinkResult String :=
  match b.endpoint with
  | some endpoint => .ok endpoint
  | none =>
    if b.config.host = "" then .error (.invalidData "No host configured")
    else .ok b.config.tcpSettings.address

def recordText (b : ConnectionBuilder) : String :=
  Text.record "ConnectionBuilder" [
    ("config", b.config.recordText),
    ("on_error", Text.truth b.reportsErrors),
    ("logger", Text.truth b.logs),
    ("dialer", Text.optional (b.endpoint.map Text.quoted))]

end ConnectionBuilder
end InverterLink
