/-!
# The checksum of a frame

A 16-bit cyclic redundancy check with the polynomial `x^16 + x^12 + x^5 + 1` over the bits of
each byte, highest first, started at all ones. The device pads the bytes to an even count with
one zero, so the accumulator keeps the parity of their count. A table gives the effect of a
whole byte at once; `Crc.bitwise` is the same check one bit at a time.
-/

namespace InverterLink

structure Crc where
  value : UInt16 := 0xFFFF
  /-- An odd count of bytes has been folded in. -/
  odd : Bool := false
  deriving DecidableEq

namespace Crc

/-- The generator polynomial without its leading term. -/
def polynomial : UInt16 := 0x1021

/-- Shift a register by one bit, and subtract the polynomial if a one falls out. -/
def shift (v : UInt16) : UInt16 :=
  if v &&& 0x8000 ≠ 0 then (v <<< 1) ^^^ polynomial else v <<< 1

/-- The effect of each byte on an empty register. -/
def table : Vector UInt16 256 :=
  Vector.ofFn fun b => Nat.repeat shift 8 (UInt16.ofNat b <<< 8)

def update (c : Crc) (b : UInt8) : Crc :=
  let index := (c.value >>> 8).toUInt8 ^^^ b
  ⟨(c.value <<< 8) ^^^ table.get ⟨index.toNat, index.toNat_lt⟩, !c.odd⟩

def updateAll (c : Crc) (bytes : List UInt8) : Crc := bytes.foldl update c

/-- Forget all bytes folded in so far. -/
def reset (_ : Crc) : Crc := {}

/-- Pad the bytes folded in so far to an even count. The checksum is the register then. -/
def finish (c : Crc) : Crc := if c.odd then c.update 0 else c

/-- Shift a register by one bit of input, and subtract the polynomial if the bit that falls
out differs from it. -/
def shiftBit (v : UInt16) (bit : Bool) : UInt16 :=
  if (v &&& 0x8000 ≠ 0) ≠ (bit = true) then (v <<< 1) ^^^ polynomial else v <<< 1

/-- The bits of a byte, highest first. -/
def bits (b : UInt8) : List Bool := [7, 6, 5, 4, 3, 2, 1, 0].map b.toNat.testBit

/-- The register after some bytes, one bit at a time. -/
def bitwise (bytes : List UInt8) : UInt16 := (bytes.flatMap bits).foldl shiftBit 0xFFFF

/-- Bytes with one zero behind them if their count is odd. -/
def padded (bytes : List UInt8) : List UInt8 :=
  if bytes.length % 2 = 1 then bytes ++ [0] else bytes

end Crc
end InverterLink
