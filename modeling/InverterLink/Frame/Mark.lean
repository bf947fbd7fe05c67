import InverterLink.Crc
import InverterLink.Datagram

/-!
# Frames on the wire

A frame is a start mark and the escaped form of its body: command code, size (payload and
identifier), identifier, payload and checksum. In the escaped form every byte that looks like a
mark has an escape mark before it, so a start mark without one begins a frame.
-/

namespace InverterLink.Frame

/-- The byte that begins a frame. -/
def startMark : UInt8 := 0x2B

/-- The byte that makes the next one stand for itself. -/
def escapeMark : UInt8 := 0x2D

/-- The bytes that need an escape mark. -/
def isMark (b : UInt8) : Bool := b == startMark || b == escapeMark

/-- The count of identifier bytes, which the size byte includes. -/
def identifierSize : Nat := 4

/-- The escaped form of one byte. -/
def escapeByte (b : UInt8) : List UInt8 := if isMark b then [escapeMark, b] else [b]

/-- The escaped form of some bytes. -/
def escape (bytes : List UInt8) : List UInt8 := bytes.flatMap escapeByte

/-- Command, size, identifier and payload: the bytes that the checksum covers. -/
def content (d : Datagram) : List UInt8 :=
  d.command.code :: UInt8.ofNat (d.payload.length + identifierSize)
    :: (d.identifier.bytes ++ d.payload)

end InverterLink.Frame
