/-!
# Hexadecimal text

Numbers in upper-case hexadecimal with a least width, and byte strings in lower case, two
digits a byte, with nothing between them.
-/

namespace InverterLink.Hex

/-- The digit of a nibble in lower case. -/
def digit (n : Nat) : Char := "0123456789abcdef".toList.getD n '0'

/-- The digits of `n` in upper case, padded with zeros to at least `width` places. -/
def upper (width n : Nat) : String :=
  let digits := (Nat.toDigits 16 n).map Char.toUpper
  String.ofList (List.replicate (width - digits.length) '0' ++ digits)

/-- The two lower-case digits of a byte. -/
def ofByte (b : UInt8) : List Char := [digit (b.toNat / 16), digit (b.toNat % 16)]

/-- A byte string, two digits a byte. -/
def encode (bytes : List UInt8) : String := String.ofList (bytes.flatMap ofByte)

/-- The value of a hexadecimal digit of either case. -/
def value? (c : Char) : Option Nat :=
  if '0' ≤ c ∧ c ≤ '9' then some (c.toNat - '0'.toNat)
  else if 'a' ≤ c ∧ c ≤ 'f' then some (c.toNat - 'a'.toNat + 10)
  else if 'A' ≤ c ∧ c ≤ 'F' then some (c.toNat - 'A'.toNat + 10)
  else none

/-- The bytes that pairs of digits stand for. -/
def bytes? : List Char → Option (List UInt8)
  | [] => some []
  | [_] => none
  | h :: l :: rest => do
    let high ← value? h
    let low ← value? l
    return UInt8.ofNat (high * 16 + low) :: (← bytes? rest)

/-- Read a byte string; an odd count of digits is refused. -/
def decode? (text : String) : Option (List UInt8) := bytes? text.toList

end InverterLink.Hex
