import InverterLink.Frame.Mark

/-!
# Building frames

A builder holds the last frame that it built. It writes byte by byte and keeps a running
checksum of the bytes before they are escaped.
-/

namespace InverterLink

structure FrameBuilder where
  bytes : List UInt8 := []
  crc : Crc := {}
  deriving DecidableEq

namespace FrameBuilder

open InverterLink.Frame

/-- Write a byte that the checksum covers. -/
def write (f : FrameBuilder) (b : UInt8) : FrameBuilder :=
  ⟨f.bytes ++ escapeByte b, f.crc.update b⟩

/-- Write the checksum of everything before it. -/
def writeChecksum (f : FrameBuilder) : FrameBuilder :=
  let crc := f.crc.finish
  ⟨f.bytes ++ escape (Datagram.wordBytes crc.value), crc⟩

def reset (_ : FrameBuilder) : FrameBuilder := {}

/-- Replace the frame by that of a datagram. -/
def build (f : FrameBuilder) (d : Datagram) : FrameBuilder :=
  let started : FrameBuilder := { f.reset with bytes := [startMark] }
  let headed := (started.write d.command.code).write
    (UInt8.ofNat (d.payload.length + identifierSize))
  let named := d.identifier.bytes.foldl write headed
  (d.payload.foldl write named).writeChecksum

/-- The frame of a datagram in a fresh builder. -/
def ofDatagram (d : Datagram) : FrameBuilder := build {} d

/-- Hand out the frame and keep none. -/
def take (f : FrameBuilder) : List UInt8 × FrameBuilder := (f.bytes, {})

/-- The bytes of the frame in upper-case hexadecimal, with blanks between them. -/
def hexText (f : FrameBuilder) : String :=
  "[" ++ " ".intercalate (f.bytes.map fun b => Hex.upper 2 b.toNat) ++ "]"

end FrameBuilder

def Datagram.encode (d : Datagram) : List UInt8 := (FrameBuilder.ofDatagram d).bytes

end InverterLink
