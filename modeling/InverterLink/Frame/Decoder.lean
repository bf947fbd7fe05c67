import InverterLink.Frame.Mark

/-!
# Decoding a byte stream

The decoder reads one byte at a time and keeps all it knows between bytes, so a stream may be
cut anywhere. An escape mark makes the next byte stand for itself; a start mark without one
begins a frame, whatever came before. A frame with an unknown command, a size too small for its
identifier or a wrong checksum is dropped, and the decoder waits for the next start mark.
-/

namespace InverterLink

/-- What the decoder waits for. -/
inductive Phase where
  | awaitingStart
  | awaitingCommand
  | awaitingSize
  | awaitingId0
  | awaitingId1
  | awaitingId2
  | awaitingId3
  | awaitingPayload
  | awaitingCrc0
  | awaitingCrc1
  /-- The last byte completed a datagram. -/
  | done
  deriving DecidableEq

namespace Phase

def name : Phase → String
  | awaitingStart => "AwaitingStart"
  | awaitingCommand => "AwaitingCmd"
  | awaitingSize => "AwaitingLen"
  | awaitingId0 => "AwaitingId0"
  | awaitingId1 => "AwaitingId1"
  | awaitingId2 => "AwaitingId2"
  | awaitingId3 => "AwaitingId3"
  | awaitingPayload => "AwaitingData"
  | awaitingCrc0 => "AwaitingCrc0"
  | awaitingCrc1 => "AwaitingCrc1"
  | done => "Done"

/-- A frame has begun and is not complete. -/
def midFrame : Phase → Bool
  | awaitingStart | done => false
  | _ => true

end Phase

/-- What became of the frames seen so far. At most one counter grows with a byte, and only by one,
so none exceeds the number of bytes read. -/
structure Statistics where
  /-- Frames with a right checksum. -/
  decoded : Nat := 0
  /-- Frames with a wrong checksum. -/
  crcErrors : Nat := 0
  /-- Frames with an unknown command or a size that is too small. -/
  headerErrors : Nat := 0
  /-- Frames that a start mark cut short. -/
  resyncs : Nat := 0
  deriving DecidableEq

/-- A decoder between two bytes. The fields of the frame in progress mean something only in the
phases behind the one that sets them. -/
structure Decoder where
  phase : Phase := .awaitingStart
  /-- The next byte stands for itself. -/
  escaped : Bool := false
  command : Command := .read
  payloadSize : Nat := 0
  identifier : UInt32 := 0
  payload : List UInt8 := []
  crc : Crc := {}
  received : UInt16 := 0
  statistics : Statistics := {}
  deriving DecidableEq

namespace Decoder

open InverterLink.Frame

/-- Drop the frame in progress. -/
def reset (d : Decoder) : Decoder :=
  { d with phase := .awaitingStart, escaped := false, payload := [] }

/-- A start mark: drop the frame in progress, if there is one, and begin another. -/
def restart (d : Decoder) : Decoder :=
  let statistics :=
    if d.phase.midFrame then { d.statistics with resyncs := d.statistics.resyncs + 1 }
    else d.statistics
  { d with phase := .awaitingCommand, statistics }

/-- Drop a frame whose header makes no sense. -/
def rejectHeader (d : Decoder) : Decoder :=
  { d with
    phase := .awaitingStart
    statistics := { d.statistics with headerErrors := d.statistics.headerErrors + 1 } }

/-- Compare the checksums at the end of a frame. -/
def conclude (d : Decoder) : Decoder × Option Datagram :=
  let crc := d.crc.finish
  if crc.value ≠ d.received then
    ({ d with
        crc
        phase := .awaitingStart
        statistics := { d.statistics with crcErrors := d.statistics.crcErrors + 1 } }, none)
  else
    ({ d with
        crc
        phase := .done
        payload := []
        statistics := { d.statistics with decoded := d.statistics.decoded + 1 } },
      some ⟨d.command, ⟨d.identifier⟩, d.payload⟩)

/-- A byte that stands for itself. -/
def literal (d : Decoder) (b : UInt8) : Decoder × Option Datagram :=
  match d.phase with
  | .awaitingStart | .done => (d, none)
  | .awaitingCommand =>
    match Command.ofCode? b with
    | some command =>
      ({ d with phase := .awaitingSize, command, crc := ({} : Crc).update b }, none)
    | none => (d.rejectHeader, none)
  | .awaitingSize =>
    if b.toNat < identifierSize then (d.rejectHeader, none)
    else
      ({ d with
          phase := .awaitingId0
          payloadSize := b.toNat - identifierSize
          crc := d.crc.update b }, none)
  | .awaitingId0 =>
    ({ d with
        phase := .awaitingId1
        identifier := b.toUInt32 <<< 24
        crc := d.crc.update b }, none)
  | .awaitingId1 =>
    ({ d with
        phase := .awaitingId2
        identifier := d.identifier ||| b.toUInt32 <<< 16
        crc := d.crc.update b }, none)
  | .awaitingId2 =>
    ({ d with
        phase := .awaitingId3
        identifier := d.identifier ||| b.toUInt32 <<< 8
        crc := d.crc.update b }, none)
  | .awaitingId3 =>
    ({ d with
        phase := if d.payloadSize = 0 then .awaitingCrc0 else .awaitingPayload
        identifier := d.identifier ||| b.toUInt32
        payload := []
        crc := d.crc.update b }, none)
  | .awaitingPayload =>
    let payload := d.payload ++ [b]
    ({ d with
        phase := if d.payloadSize ≤ payload.length then .awaitingCrc0 else .awaitingPayload
        payload
        crc := d.crc.update b }, none)
  | .awaitingCrc0 =>
    ({ d with phase := .awaitingCrc1, received := b.toUInt16 <<< 8 }, none)
  | .awaitingCrc1 => conclude { d with received := d.received ||| b.toUInt16 }

/-- Read one byte, and hand out the datagram that it completes. -/
def feed (d : Decoder) (b : UInt8) : Decoder × Option Datagram :=
  if d.escaped then literal { d with escaped := false } b
  else if b = startMark then (d.restart, none)
  else if b = escapeMark then ({ d with escaped := true }, none)
  else d.literal b

/-- Read bytes up to the end of the next datagram. The last component holds the bytes that were
not read. -/
def next (d : Decoder) : List UInt8 → Decoder × Option Datagram × List UInt8
  | [] => (d, none, [])
  | b :: rest =>
    match d.feed b with
    | (d', some datagram) => (d', some datagram, rest)
    | (d', none) => next d' rest

/-- Read bytes until `n` datagrams are complete, and nothing behind the last of them. -/
def pull (d : Decoder) (bytes : List UInt8) : Nat → Decoder × List Datagram × List UInt8
  | 0 => (d, [], bytes)
  | n + 1 =>
    match d.next bytes with
    | (d', none, rest) => (d', [], rest)
    | (d', some datagram, rest) =>
      let (d'', datagrams, unread) := d'.pull rest n
      (d'', datagram :: datagrams, unread)

def decode (d : Decoder) : List UInt8 → Decoder × List Datagram
  | [] => (d, [])
  | b :: rest =>
    let (d', completed) := d.feed b
    let (d'', datagrams) := d'.decode rest
    (d'', completed.toList ++ datagrams)

def decodeChunks (d : Decoder) : List (List UInt8) → Decoder × List Datagram
  | [] => (d, [])
  | chunk :: rest =>
    let (d', datagrams) := d.decode chunk
    let (d'', more) := d'.decodeChunks rest
    (d'', datagrams ++ more)

end Decoder
end InverterLink
