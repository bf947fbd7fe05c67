import InverterLink.Command
import InverterLink.Fault
import InverterLink.Identifier
import InverterLink.LinkError
import InverterLink.Text.Record

/-!
# Datagrams

A datagram is one message: a command, the identifier of a variable, and a payload that holds a
number with its highest byte first. A frame counts identifier and payload in one byte, so a
payload fits in a frame when it has at most 251 bytes.
-/

namespace InverterLink

/-- The command that a byte stands for; another byte is refused. -/
def Command.ofByte (b : UInt8) : LinkResult Command :=
  match ofCode? b with
  | some c => .ok c
  | none => .error (.invalidCommand b)

/-- The longest payload that fits in a frame. -/
def maxPayload : Nat := 251

structure Datagram where
  command : Command
  identifier : Identifier
  payload : List UInt8
  deriving DecidableEq

namespace Datagram

/-- The payload fits in a frame. -/
def Fits (d : Datagram) : Prop := d.payload.length ≤ maxPayload

instance (d : Datagram) : Decidable d.Fits :=
  inferInstanceAs (Decidable (d.payload.length ≤ maxPayload))

/-- A datagram whose payload fits; a longer payload is a fault of the caller. -/
def make (command : Command) (identifier : Identifier) (payload : List UInt8) :
    Except Fault Datagram :=
  if payload.length ≤ maxPayload then .ok ⟨command, identifier, payload⟩
  else .error (.payloadTooLong payload.length)

/-- A 16-bit word, highest byte first. -/
def wordBytes (w : UInt16) : List UInt8 := [(w >>> 8).toUInt8, w.toUInt8]

/-- A 32-bit word, highest byte first. -/
def longBytes (w : UInt32) : List UInt8 :=
  [(w >>> 24).toUInt8, (w >>> 16).toUInt8, (w >>> 8).toUInt8, w.toUInt8]

/-- A request for the value of a variable. -/
def read (identifier : Identifier) : Datagram := ⟨.read, identifier, []⟩

/-- A request to set a variable. -/
def write (identifier : Identifier) (payload : List UInt8) : Except Fault Datagram :=
  make .write identifier payload

/-- A 32-bit payload; a single-precision number is given by its bits. -/
def ofLong (command : Command) (identifier : Identifier) (value : UInt32) : Datagram :=
  ⟨command, identifier, longBytes value⟩

def ofWord (command : Command) (identifier : Identifier) (value : UInt16) : Datagram :=
  ⟨command, identifier, wordBytes value⟩

def ofByte (command : Command) (identifier : Identifier) (value : UInt8) : Datagram :=
  ⟨command, identifier, [value]⟩

/-- Whether the datagram carries an answer of the device. -/
def isResponse (d : Datagram) : Bool := d.command.isResponse

/-- Refuse a datagram that does not answer a question about `identifier`. -/
def ensureResponseTo (d : Datagram) (identifier : Identifier) : LinkResult Unit :=
  if ¬ d.isResponse then
    .error (.unexpectedResponse ("expected a response, got command " ++ d.command.name))
  else if d.identifier ≠ identifier then
    .error (.unexpectedResponse ("expected identifier 0x" ++ Hex.upper 8 identifier.value.toNat
      ++ ", got 0x" ++ Hex.upper 8 d.identifier.value.toNat))
  else .ok ()

def long (d : Datagram) : LinkResult UInt32 :=
  match d.payload with
  | [a, b, c, e] =>
    .ok (a.toUInt32 <<< 24 ||| b.toUInt32 <<< 16 ||| c.toUInt32 <<< 8 ||| e.toUInt32)
  | payload => .error (.invalidLength 4 payload.length)

/-- The bits of the payload as a single-precision number. -/
def floatBits (d : Datagram) : LinkResult UInt32 := d.long

def signedLong (d : Datagram) : LinkResult Int32 := d.long.map UInt32.toInt32

def word (d : Datagram) : LinkResult UInt16 :=
  match d.payload with
  | [a, b] => .ok (a.toUInt16 <<< 8 ||| b.toUInt16)
  | payload => .error (.invalidLength 2 payload.length)

def byte (d : Datagram) : LinkResult UInt8 :=
  match d.payload with
  | [a] => .ok a
  | payload => .error (.invalidLength 1 payload.length)

/-- Bytes as decimal numbers between brackets. -/
def listText (bytes : List UInt8) : String :=
  "[" ++ ", ".intercalate (bytes.map fun b => toString b.toNat) ++ "]"

/-- The line that shows a datagram to people. -/
def line (d : Datagram) : String :=
  "Cmd " ++ d.command.name ++ " (" ++ Hex.upper 2 d.command.code.toNat ++ ") Id "
    ++ d.identifier.caption ++ " (" ++ Hex.upper 8 d.identifier.value.toNat ++ ") Data "
    ++ listText d.payload

def recordText (d : Datagram) : String :=
  Text.record "Datagram" [("command", d.command.name), ("identifier", d.identifier.recordText),
    ("payload", listText d.payload)]

end Datagram
end InverterLink
