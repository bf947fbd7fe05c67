import InverterLink.Backoff
import InverterLink.Number.Decimal
import InverterLink.Tcp

/-!
# Settings of a connection

Where the device is, how long to wait for it, and how to redial.
-/

namespace InverterLink

def BackoffPolicy.recordText (p : BackoffPolicy) : String :=
  Text.record "BackoffPolicy" [
    ("initial_interval", p.initialInterval.text),
    ("multiplier", DecimalLayout.record.text p.multiplier),
    ("randomization_factor", DecimalLayout.record.text p.randomizationFactor),
    ("max_interval", p.maxInterval.text),
    ("max_elapsed_time", p.maxElapsedTime.text)]

structure ConnectionConfig where
  host : String := ""
  port : UInt16 := defaultPort
  /-- The greatest age of a cached answer, and the longest wait for a new one. -/
  queryTimeout : Duration := .ofMillis 2000
  /-- The longest time of one dial. -/
  dialTimeout : Duration := .ofMillis 5000
  backoff : BackoffPolicy := {}
  deriving DecidableEq

namespace ConnectionConfig

def ofHost (host : String) : ConnectionConfig := { host }

/-- The settings of dials over TCP. -/
def tcpSettings (c : ConnectionConfig) : TcpSettings := ⟨c.host, c.port, some c.dialTimeout⟩

def recordText (c : ConnectionConfig) : String :=
  Text.record "ConnectionConfig" [
    ("host", Text.quoted c.host),
    ("port", toString c.port.toNat),
    ("query_timeout", c.queryTimeout.text),
    ("dial_timeout", c.dialTimeout.text),
    ("backoff", c.backoff.recordText)]

end ConnectionConfig
end InverterLink
