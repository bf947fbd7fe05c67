import InverterLink.Identifier
import InverterLink.Json.Record
import InverterLink.Settings

/-!
# Settings as JSON

Settings and policies are records with defaults. A duration is stricter: seconds and nanoseconds
are both needed, and nothing else is allowed.
-/

namespace InverterLink

open Json (Value)

/-- Seconds and nanoseconds of a duration. -/
def Duration.ofJsonParts? (secs nanos : Value) : Option Duration := do
  let secs ← secs.nat?
  let nanos ← nanos.nat?
  if UInt32.size ≤ nanos then none
  ofParts? secs nanos

def Duration.ofJson? : Value → Option Duration
  | .array [secs, nanos] => ofJsonParts? secs nanos
  | .object [(some "secs", secs), (some "nanos", nanos)] => ofJsonParts? secs nanos
  | .object [(some "nanos", nanos), (some "secs", secs)] => ofJsonParts? secs nanos
  | _ => none

def Duration.toJson (d : Duration) : Value :=
  .record [("secs", .nat d.secs), ("nanos", .nat d.subsecNanos)]

def Binary64.ofJson? : Value → Option Binary64
  | .number n => n.binary64?
  | _ => none

def Binary64.toJson (x : Binary64) : Value := .number (.ofBinary64 x)

def portOfJson? (v : Value) : Option UInt16 := do
  let n ← v.nat?
  if n < UInt16.size then some (UInt16.ofNat n) else none

def Identifier.ofJson? (v : Value) : Option Identifier := do
  let n ← v.nat?
  if n < UInt32.size then some ⟨UInt32.ofNat n⟩ else none

def Identifier.toJson (id : Identifier) : Value := .nat id.value.toNat

namespace BackoffPolicy

def fields : List (Json.Field BackoffPolicy) := [
  ⟨"initial_interval", fun v p => do return { p with initialInterval := ← Duration.ofJson? v }⟩,
  ⟨"multiplier", fun v p => do return { p with multiplier := ← Binary64.ofJson? v }⟩,
  ⟨"randomization_factor",
    fun v p => do return { p with randomizationFactor := ← Binary64.ofJson? v }⟩,
  ⟨"max_interval", fun v p => do return { p with maxInterval := ← Duration.ofJson? v }⟩,
  ⟨"max_elapsed_time", fun v p => do return { p with maxElapsedTime := ← Duration.ofJson? v }⟩]

def ofJson? : Value → Option BackoffPolicy := Json.readRecord fields {}

def toJson (p : BackoffPolicy) : Value :=
  .record [
    ("initial_interval", p.initialInterval.toJson),
    ("multiplier", p.multiplier.toJson),
    ("randomization_factor", p.randomizationFactor.toJson),
    ("max_interval", p.maxInterval.toJson),
    ("max_elapsed_time", p.maxElapsedTime.toJson)]

end BackoffPolicy

namespace ConnectionConfig

def fields : List (Json.Field ConnectionConfig) := [
  ⟨"host", fun v c => do return { c with host := ← v.text? }⟩,
  ⟨"port", fun v c => do return { c with port := ← portOfJson? v }⟩,
  ⟨"query_timeout", fun v c => do return { c with queryTimeout := ← Duration.ofJson? v }⟩,
  ⟨"dial_timeout", fun v c => do return { c with dialTimeout := ← Duration.ofJson? v }⟩,
  ⟨"backoff", fun v c => do return { c with backoff := ← BackoffPolicy.ofJson? v }⟩]

def ofJson? : Value → Option ConnectionConfig := Json.readRecord fields {}

def toJson (c : ConnectionConfig) : Value :=
  .record [
    ("host", .text c.host),
    ("port", .nat c.port.toNat),
    ("query_timeout", c.queryTimeout.toJson),
    ("dial_timeout", c.dialTimeout.toJson),
    ("backoff", c.backoff.toJson)]

end ConnectionConfig
end InverterLink
